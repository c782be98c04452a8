import Mathlib
import RayTracer.Proofs.Render.Furnace
import RayTracer.Proofs.Scene.MovedScenes
import RayTracer.Render.Bucket
import RayTracer.Render.Renderer

/-! Pictures of scenes that are moved together with their cameras. The rays of a moved camera are moved rays,
and what the simple renderers tell of a ray does not depend on where in the world it is met, so every pixel
keeps its color. -/

namespace RayTracer

namespace Viewport

variable {α : Type} [Scalar α] {m : Type → Type} [Monad m]

/-- The view through another camera. -/
def through (view : Viewport α) (camera : Camera α) : Viewport α := { view with camera := camera }

variable {view : Viewport α} {coloring other : RayColoring m α} {camera : Camera α}

section Alike

/-! Another coloring finds for the rays of another camera what the coloring finds for the rays of the view. -/

variable (hAlike : ∀ u v, other (camera.ray u v) = coloring (view.camera.ray u v))

include hAlike

theorem sumCells_alike (pixel : ℕ × ℕ) (cells : List (ℕ × ℕ)) (sum : Color α) :
    (view.through camera).sumCells other pixel cells sum = view.sumCells coloring pixel cells sum := by
  induction cells generalizing sum with
  | nil => rfl
  | cons cell cells ih =>
      have hCell : (view.through camera).cellColor other pixel cell = view.cellColor coloring pixel cell := by
        unfold cellColor colorThrough Camera.pixelRay
        simp only [through, hAlike]
        rfl
      simp only [sumCells, hCell, ih]

/-- Through the other camera a pixel has the color that the view gives it. -/
theorem pixelColor_alike [MonadLiftT (Except Fault) m] :
    (view.through camera).pixelColor other = view.pixelColor coloring := by
  have hCenter (pixel : ℕ × ℕ) : (view.through camera).colorThrough other pixel 0.5 0.5 =
      view.colorThrough coloring pixel 0.5 0.5 := hAlike _ _
  have hSame : (view.through camera).samplesPerSide = view.samplesPerSide := rfl
  funext pixel
  simp only [pixelColor, hCenter, sumCells_alike hAlike, hSame]

theorem traceImage_alike [MonadLiftT (Except Fault) m] :
    (view.through camera).traceImage other = view.traceImage coloring := by
  have hStep (image : Image α) :
      Viewport.tracePixel ⟨camera, image.width, image.height, view.samplesPerSide⟩ other =
        Viewport.tracePixel ⟨view.camera, image.width, image.height, view.samplesPerSide⟩ coloring := by
    let whole : Viewport α := ⟨view.camera, image.width, image.height, view.samplesPerSide⟩
    have hWhole (u v : α) : other (camera.ray u v) = coloring (whole.camera.ray u v) := hAlike u v
    have hPixel : (whole.through camera).pixelColor other = whole.pixelColor coloring :=
      pixelColor_alike hWhole
    unfold tracePixel
    rw [← hPixel]
    rfl
  unfold traceImage Image.retrace
  simp only [through, hStep]

end Alike

theorem renderBuckets_alike {coloring other : RayColoring (Except Fault) α}
    (hAlike : ∀ u v, other (camera.ray u v) = coloring (view.camera.ray u v)) :
    (view.through camera).renderBuckets other = view.renderBuckets coloring := by
  have hOwn : (view.through camera).ownColor other = view.ownColor coloring := by
    unfold ownColor
    rw [pixelColor_alike hAlike]
    rfl
  unfold renderBuckets renderInOrder renderEach renderBucket
  rw [hOwn]
  rfl

end Viewport

/-- The view of a camera that is moved. -/
noncomputable def Viewport.moved (view : Viewport ℝ) (s : Transformation ℝ) : Viewport ℝ :=
  view.through (view.camera.moved s)

variable {s : Transformation ℝ}

/-- Whether anything is seen, and the colors of what is seen, are kept. -/
theorem Renderer.radiance_moved (hs : s.Regular) (world : World ℝ) (ray : Ray ℝ) (background color : Color ℝ)
    {renderer : Renderer ℝ} (hSimple : renderer ∈ [.onOff background color, .flat background]) :
    renderer.radiance (world.moved s) (ray.transform s) = renderer.radiance world ray := by
  have hSeen := world.intersect?_eq_encounter? ray
  have hMoved := (world.moved s).intersect?_eq_encounter? (ray.transform s)
  rw [world.encounter?_moved ray hs, Option.map_map] at hMoved
  rcases List.mem_pair.mp hSimple with rfl | rfl
  · rw [radiance, radiance, hSeen, hMoved, Option.isSome_map, Option.isSome_map]
  · cases hEncounter : world.encounter? ray with
    | none =>
        rw [hEncounter] at hSeen hMoved
        rw [radiance, radiance, hSeen, hMoved]
        rfl
    | some encounter =>
        rw [hEncounter] at hSeen hMoved
        have hUv := encounter.1.uv_hitAt_moved ray hs encounter.2
        have hColor : flatColor (World.sight (ray.transform s) (encounter.1.moved s, encounter.2)) =
            flatColor (World.sight ray encounter) := by
          simp only [flatColor, World.sight, hUv]
          rfl
        rw [radiance, radiance, hSeen, hMoved]
        exact congrArg StateT.lift hColor

/-- A scene and a camera that are moved together give the same picture, in exact numbers and by the renderers
that need no lights. A moved ray sees the moved shape at the same parameter and the same place of its surface;
in the world this place has moved along. Shapes may be placed anyhow, the camera by an affine map. -/
theorem Viewport.picture_moved (hInverse : s.forward * s.backward = Matrix.identity)
    (hAffine : s.forward.row3 = ⟨0, 0, 0, 1⟩) (world : World ℝ) :
    (∀ ray : Ray ℝ,
      (world.intersect? ray = none ∧ (world.moved s).intersect? (ray.transform s) = none) ∨
      ∃ shape ∈ world.shapes, ∃ hit seen : Hit ℝ,
        shape.intersect? ray = some hit ∧ (shape.moved s).intersect? (ray.transform s) = some seen ∧
        world.intersect? ray = some { hit with normal := hit.normal.normalized } ∧
        (world.moved s).intersect? (ray.transform s) =
          some { seen with normal := seen.normal.normalized } ∧
        seen.t = hit.t ∧ seen.uv = hit.uv ∧ seen.normal = s.applyNormal hit.normal ∧
        (shape.transformation.forward.row3 = ⟨0, 0, 0, 1⟩ → seen.point = s.applyPoint hit.point)) ∧
    ∀ view : Viewport ℝ, view.camera.transformation.forward.row3 = ⟨0, 0, 0, 1⟩ →
      ∀ (background color : Color ℝ), ∀ renderer ∈ [Renderer.onOff background color, .flat background],
        (∀ pixel, (view.moved s).pixelColor (renderer.radiance (world.moved s)) pixel =
          view.pixelColor (renderer.radiance world) pixel) ∧
        (view.moved s).traceImage (renderer.radiance (world.moved s)) =
          view.traceImage (renderer.radiance world) ∧
        ∀ seed bucketSize, (view.moved s).renderBuckets (renderer.radiance (world.moved s)) seed bucketSize =
          view.renderBuckets (renderer.radiance world) seed bucketSize := by
  have hs := Transformation.regular_of_affine hInverse hAffine
  constructor
  · intro ray
    have hSeen := world.intersect?_eq_encounter? ray
    have hMoved := (world.moved s).intersect?_eq_encounter? (ray.transform s)
    rw [world.encounter?_moved ray hs, Option.map_map] at hMoved
    cases hEncounter : world.encounter? ray with
    | none =>
        rw [hEncounter] at hSeen hMoved
        exact Or.inl ⟨hSeen, hMoved⟩
    | some encounter =>
        obtain ⟨shape, t⟩ := encounter
        obtain ⟨hShape, hParameter⟩ := World.of_encounter? hEncounter
        rw [hEncounter] at hSeen hMoved
        refine Or.inr ⟨shape, hShape, shape.hitAt ray t, (shape.moved s).hitAt (ray.transform s) t, ?_, ?_,
          hSeen, hMoved, rfl, shape.uv_hitAt_moved ray hs t, shape.normal_hitAt_moved ray hs t,
          fun hPlaced => shape.point_hitAt_moved ray hs hPlaced t⟩
        · rw [Shape.intersect?, hParameter, Option.map_some]
        · rw [Shape.intersect?, shape.parameter?_moved ray hs, hParameter, Option.map_some]
  · intro view hCamera background color renderer hSimple
    have hAlike (u v : ℝ) : renderer.radiance (world.moved s) ((view.camera.moved s).ray u v) =
        renderer.radiance world (view.camera.ray u v) := by
      rw [view.camera.ray_moved hCamera]
      exact Renderer.radiance_moved hs world _ background color hSimple
    refine ⟨fun pixel => congrFun (pixelColor_alike hAlike) pixel, traceImage_alike hAlike, ?_⟩
    exact fun seed bucketSize => congrFun (congrFun (renderBuckets_alike hAlike) seed) bucketSize

/-- A mirrored ball before a camera, both tilted and stretched. -/
theorem Viewport.picture_moved_glowingMirror :
    (Transformation.tilted.forward * Transformation.tilted.backward = Matrix.identity ∧
      Transformation.tilted.forward.row3 = ⟨0, 0, 0, 1⟩) ∧
    (∃ seen : Hit ℝ, ((⟨[PathTracer.glowingMirror], []⟩ : World ℝ).moved .tilted).intersect?
        ((PathTracer.across 1 0).transform .tilted) = some seen ∧
      seen.point = Transformation.tilted.applyPoint ⟨-1, 0, 0⟩) ∧
    ∀ (camera : Camera ℝ), camera.transformation = .identity → ∀ (background : Color ℝ) (pixel : ℕ × ℕ),
      ((⟨camera, 3, 2, 4⟩ : Viewport ℝ).moved .tilted).pixelColor ((Renderer.flat background).radiance
          ((⟨[PathTracer.glowingMirror], []⟩ : World ℝ).moved .tilted)) pixel =
        (⟨camera, 3, 2, 4⟩ : Viewport ℝ).pixelColor ((Renderer.flat background).radiance
          ⟨[PathTracer.glowingMirror], []⟩) pixel := by
  have hRegular := Transformation.composed_tilted.regular
  have hInverse := hRegular.forward_backward
  have hAffine : Transformation.tilted.forward.row3 = ⟨0, 0, 0, 1⟩ := hRegular.forward_affine
  have hPlaced : (Transformation.identity : Transformation ℝ).forward.row3 = ⟨0, 0, 0, 1⟩ :=
    Transformation.regular_identity.forward_affine
  obtain ⟨hRays, hViews⟩ := picture_moved hInverse hAffine ⟨[PathTracer.glowingMirror], []⟩
  refine ⟨⟨hInverse, hAffine⟩, ?_, ?_⟩
  · obtain ⟨met, hMet, -, hPoint, -⟩ := PathTracer.intersect?_across (one_mul 1) 0
    rcases hRays (PathTracer.across 1 0) with
      ⟨hNone, -⟩ | ⟨shape, hShape, hit, seen, -, -, hHit, hSeen, -, -, -, hMoved⟩
    · rw [hNone] at hMet
      cases hMet
    · obtain rfl := List.mem_singleton.mp hShape
      rw [hHit] at hMet
      obtain rfl := Option.some.inj hMet
      exact ⟨_, hSeen, (hMoved hPlaced).trans (congrArg _ hPoint)⟩
  · intro camera hCamera background pixel
    have hView : camera.transformation.forward.row3 = ⟨0, 0, 0, 1⟩ := by rw [hCamera, hPlaced]
    exact (hViews ⟨camera, 3, 2, 4⟩ hView background Color.white _ (by simp)).1 pixel

end RayTracer
