import Mathlib
import RayTracer.CommandLine.Run
import RayTracer.Proofs.Image.HeldImages
import RayTracer.Proofs.Outcomes
import RayTracer.Proofs.Render.SamplingRules

/-! Images that are rendered. Whether they are traced pixel by pixel or put together from buckets, they begin as
black images and have their pixels set one after the other, so memory holds them. -/

namespace RayTracer

variable {α : Type} [Scalar α]

namespace Viewport

variable {view : Viewport α} (hWidth : 0 < view.width) (hHeight : 0 < view.height)

include hWidth hHeight

theorem onlyGives_held_traceImage (coloring : RayColoring (Except Fault) α) :
    Sampling.OnlyGives (view.traceImage coloring) Image.Held := by
  have hBlank : Sampling.OnlyGives (Image.blank view.width view.height : Except Fault (Image α)) Image.Held :=
    Sampling.onlyGives_lift fun image hImage => Image.held_of_blank hWidth hHeight hImage
  unfold traceImage
  refine hBlank.bind fun blank hHeld => ?_
  rw [Image.retrace_eq]
  refine Sampling.OnlyGives.foldlM (fun image pixel hImage => ?_) _ hHeld
  refine (Sampling.onlyGives_trivial _).bind fun color _ => ?_
  exact Sampling.onlyGives_lift fun next hNext => hImage.set hNext

/-- What is rendered in buckets is held by memory. -/
theorem held_of_renderBuckets {coloring : RayColoring (Except Fault) α} {seed : UInt64} {bucketSize : ℕ}
    {image : Image α} (h : view.renderBuckets coloring seed bucketSize = .ok image) : image.Held := by
  obtain ⟨buckets, -, hOrder⟩ := bind_eq_ok_iff.mp h
  obtain ⟨rendered, -, hAssembled⟩ := bind_eq_ok_iff.mp hOrder
  obtain ⟨blank, hBlank, hWritten⟩ := bind_eq_ok_iff.mp hAssembled
  refine of_foldlM_eq_ok (fun image item next hImage hNext => ?_) (Image.held_of_blank hWidth hHeight hBlank) hWritten
  exact of_foldlM_eq_ok (fun image place next hImage hNext => hImage.set hNext) hImage hNext

end Viewport

namespace CommandLine

variable {scene : Scene} {options : RenderOptions} {image : Image Float}

/-- Whatever the options, a rendered image is held by memory. -/
theorem held_of_renderImage {side : ℕ} (hWidth : 0 < options.width) (hHeight : 0 < options.height)
    (h : renderImage scene side options = .ok image) : image.Held := by
  obtain ⟨renderer, -, hImage⟩ := bind_eq_ok_iff.mp h
  split at hImage
  next => exact Viewport.held_of_renderBuckets hWidth hHeight hImage
  next =>
      obtain ⟨⟨traced, rest⟩, hTraced, hSame⟩ := bind_eq_ok_iff.mp hImage
      obtain rfl := pure_eq_ok_iff.mp hSame
      exact Viewport.onlyGives_held_traceImage hWidth hHeight _ _ _ _ hTraced

/-- Every rendered image has a pixel, and memory holds all of them. -/
theorem held_of_render (h : render scene options = .ok image) : image.Held := by
  unfold render at h
  split at h
  next => cases h
  next hSize =>
      obtain ⟨side, -, hImage⟩ := bind_eq_ok_iff.mp h
      push Not at hSize
      exact held_of_renderImage (Nat.pos_of_ne_zero hSize.1) (Nat.pos_of_ne_zero hSize.2)
        (mapError_eq_ok_iff.mp hImage)

end CommandLine

end RayTracer
