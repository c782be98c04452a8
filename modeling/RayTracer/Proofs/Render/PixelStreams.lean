import Mathlib
import RayTracer.Proofs.Random.Streams
import RayTracer.Proofs.Render.SerialTracing

/-! The generators of a rendering in buckets. Every pixel has one of its own, on the stream that the place of the
pixel selects. The places of two pixels are different, and there are few enough for none to lose its top bit, so
the generators are on different streams and stay there. -/

namespace RayTracer

variable {α : Type} [Scalar α]

namespace Viewport

omit [Scalar α] in
/-- The generator that a pixel of an image begins with. -/
def ownGenerator (view : Viewport α) (seed : UInt64) (pixel : ℕ × ℕ) : Pcg :=
  Pcg.seeded seed (UInt64.ofNat (pixel.2 * view.width + pixel.1))

variable {view : Viewport α} {coloring : RayColoring (Except Fault) α} {seed : UInt64}

/-- A pixel is colored with its own generator and nothing else. -/
theorem ownColor_eq {pixel : ℕ × ℕ} (hFit : view.width * view.height < UInt64.size)
    (hCol : pixel.1 < view.width) (hRow : pixel.2 < view.height) :
    view.ownColor coloring seed pixel =
      Prod.fst <$> (view.pixelColor coloring pixel).run (view.ownGenerator seed pixel) := by
  rw [ownColor, view.streamOf_eq hFit hCol hRow, map_eq_pure_bind]
  rfl

/-- The pixels of an image that is rendered in buckets are the colors that are computed for them alone. -/
theorem ownColor_of_renderBuckets {size : ℕ} {image : Image α}
    (h : view.renderBuckets coloring seed size = .ok image) {col row : ℕ} (hCol : col < view.width)
    (hRow : row < view.height) : view.ownColor coloring seed (col, row) = image.get col row := by
  have hSize : 0 < size := by
    obtain ⟨buckets, hPlan, -⟩ := bind_eq_ok_iff.mp h
    rw [Bucket.plan] at hPlan
    split at hPlan
    next => cases hPlan
    next hSome => exact Nat.pos_of_ne_zero hSome
  obtain ⟨blank, hBlank⟩ : ∃ blank : Image α, Image.blank view.width view.height = .ok blank := by
    cases hBlank : (Image.blank view.width view.height : Except Fault (Image α)) with
    | ok blank => exact ⟨blank, rfl⟩
    | error fault =>
        obtain ⟨first, hFault⟩ := exists_renderBuckets_eq_error_of_blank hBlank coloring seed hSize
        cases h.symm.trans hFault
  have hColors (pixel : ℕ × ℕ) (hCol : pixel.1 < view.width) (hRow : pixel.2 < view.height) :
      ∃ color, view.ownColor coloring seed pixel = .ok color := by
    cases hOwn : view.ownColor coloring seed pixel with
    | ok color => exact ⟨color, rfl⟩
    | error fault =>
        obtain ⟨first, hFault⟩ := exists_renderBuckets_eq_error hBlank hSize hCol hRow hOwn
        cases h.symm.trans hFault
  have : Nonempty (Color α) := ⟨Color.black⟩
  choose! own hOwn using hColors
  obtain rfl := Except.ok.inj (h.symm.trans (renderBuckets_eq_tabulate hBlank hOwn hSize))
  rw [Image.get_tabulate own (Image.count_lt_of_held (Image.blank_eq_tabulate hBlank).2) hCol hRow]
  exact hOwn (col, row) hCol hRow

omit [Scalar α] in
/-- No two pixels of an image are on one stream. -/
theorem inc_ownGenerator_ne (hCount : view.width * view.height ≤ 2 ^ 63) {pixel other : ℕ × ℕ}
    (hPixel : pixel.1 < view.width ∧ pixel.2 < view.height) (hOther : other.1 < view.width ∧ other.2 < view.height)
    (hDifferent : pixel ≠ other) :
    (view.ownGenerator seed pixel).inc ≠ (view.ownGenerator seed other).inc := by
  have hPlace {pixel : ℕ × ℕ} (hInside : pixel.1 < view.width ∧ pixel.2 < view.height) :
      (UInt64.ofNat (pixel.2 * view.width + pixel.1)).toNat % 2 ^ 63 = pixel.2 * view.width + pixel.1 := by
    have hLess := (Image.offset_lt hInside.1 hInside.2).trans_le hCount
    rw [UInt64.toNat_ofNat_of_lt' (hLess.trans (by decide)), Nat.mod_eq_of_lt hLess]
  rw [ownGenerator, ownGenerator, Pcg.inc_seeded, Pcg.inc_seeded, ne_eq, Pcg.increment_eq_iff, hPlace hPixel,
    hPlace hOther]
  intro hSame
  have hHere := Image.column_row_of_offset pixel.2 hPixel.1
  have hThere := Image.column_row_of_offset other.2 hOther.1
  rw [← hSame] at hThere
  exact hDifferent (Prod.ext (hHere.1.symm.trans hThere.1) (hHere.2.symm.trans hThere.2))

/-- Pixels do not share their chance. Generators are the same only where their seeds are and where all bits of their
streams but the top one are. In an image that is rendered in buckets, every pixel is colored with a generator of
its own. Those of two pixels have different increments, and however many numbers each of them gives, they do not
come to be the same. -/
theorem renderBuckets_streams_apart :
    (∀ start other stream track : UInt64, Pcg.seeded start stream = Pcg.seeded other track ↔
      start = other ∧ stream.toNat % 2 ^ 63 = track.toNat % 2 ^ 63) ∧
    ∀ (view : Viewport α) (seed : UInt64), view.width * view.height ≤ 2 ^ 63 →
      (∀ (coloring : RayColoring (Except Fault) α) (col row : ℕ), col < view.width → row < view.height →
        view.ownColor coloring seed (col, row) =
            Prod.fst <$> (view.pixelColor coloring (col, row)).run (view.ownGenerator seed (col, row)) ∧
          ∀ size image, view.renderBuckets coloring seed size = .ok image →
            image.get col row = view.ownColor coloring seed (col, row)) ∧
      ∀ pixel other : ℕ × ℕ, pixel.1 < view.width ∧ pixel.2 < view.height →
        other.1 < view.width ∧ other.2 < view.height → pixel ≠ other →
        (view.ownGenerator seed pixel).inc ≠ (view.ownGenerator seed other).inc ∧
          ∀ given more, (Pcg.draws given (view.ownGenerator seed pixel)).2 ≠
            (Pcg.draws more (view.ownGenerator seed other)).2 := by
  refine ⟨fun _ _ _ _ => Pcg.seeded_eq_iff, fun view seed hCount => ⟨fun coloring col row hCol hRow => ?_, ?_⟩⟩
  · have hFit : view.width * view.height < UInt64.size := hCount.trans_lt (by decide)
    exact ⟨ownColor_eq hFit hCol hRow, fun size image hImage => (ownColor_of_renderBuckets hImage hCol hRow).symm⟩
  · intro pixel other hPixel hOther hDifferent
    have hInc : (view.ownGenerator seed pixel).inc ≠ (view.ownGenerator seed other).inc :=
      inc_ownGenerator_ne hCount hPixel hOther hDifferent
    exact ⟨hInc, Pcg.draws_ne_of_inc hInc⟩

/-- A small view with one ray for every pixel. -/
def grainy : Viewport Float := ⟨⟨.orthogonal, 1.0, Transformation.identity⟩, 3, 2, 0⟩

/-- Colors that are nothing but chance. -/
def grain (_ : Ray Float) (generator : Pcg) : Color Float × Pcg :=
  let (noise, rest) : Float × Pcg := generator.drawUnit
  (⟨noise, noise, noise⟩, rest)

/-- The top bit of a stream is lost. The first and the last pixel of a rendered image have streams that differ in
other bits. -/
theorem renderBuckets_streams_apart_grainy :
    Pcg.seeded 42 54 = Pcg.seeded 42 0x8000000000000036 ∧
      (grainy.width * grainy.height ≤ 2 ^ 63 ∧ ((0, 0) : ℕ × ℕ) ≠ (2, 1)) ∧
      (∃ image, grainy.renderBuckets (RayColoring.ofFunction grain) 42 2 = .ok image ∧
        image.get 2 1 = Prod.fst <$>
          (grainy.pixelColor (RayColoring.ofFunction grain) (2, 1)).run (grainy.ownGenerator 42 (2, 1))) ∧
      ∀ given more, (Pcg.draws given (grainy.ownGenerator 42 (0, 0))).2 ≠
        (Pcg.draws more (grainy.ownGenerator 42 (2, 1))).2 := by
  have hCount : grainy.width * grainy.height ≤ 2 ^ 63 := by decide
  have hDifferent : ((0, 0) : ℕ × ℕ) ≠ (2, 1) := by decide
  have hBlank : (Image.blank grainy.width grainy.height : Except Fault (Image Float)) =
      .ok (Image.tabulate 3 2 fun _ => Color.black) := rfl
  have hImage := renderBuckets_eq_tabulate hBlank
    (fun pixel hCol hRow => grainy.ownColor_ofFunction grain 42 (by decide) (by decide) hCol hRow) (by decide : 0 < 2)
  obtain ⟨hSeeds, hViews⟩ := renderBuckets_streams_apart (α := Float)
  obtain ⟨hColors, hStreams⟩ := hViews grainy 42 hCount
  obtain ⟨hOwn, hPixel⟩ := hColors (RayColoring.ofFunction grain) 2 1 (by decide) (by decide)
  refine ⟨(hSeeds _ _ _ _).mpr ⟨rfl, by decide⟩, ⟨hCount, hDifferent⟩,
    ⟨_, hImage, (hPixel 2 _ hImage).trans hOwn⟩, ?_⟩
  exact (hStreams (0, 0) (2, 1) (by decide) (by decide) hDifferent).2

end Viewport

end RayTracer
