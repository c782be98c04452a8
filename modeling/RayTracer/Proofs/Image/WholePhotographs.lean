import Mathlib
import RayTracer.Image.Jpeg.Reader
import RayTracer.Proofs.Image.WholePictures

/-! Whole photographs. A photograph is shown at every position of its frame, so it has all its pixels. Its frame
is read once, with sides of two bytes each, and is kept from segment to segment. -/

namespace RayTracer.Jpeg

open ByteReader

theorem satisfiesM_readField : SatisfiesM (· < UInt16.size) readField := by
  refine satisfiesM_nat8.bind fun high hHigh => satisfiesM_nat8.bind fun low hLow => SatisfiesM.pure ?_
  simp only [UInt8.size, UInt16.size] at hHigh hLow ⊢
  omega

/-- The sides of a frame are fields of two bytes. -/
theorem satisfiesM_readFrame (process : Process) :
    SatisfiesM (fun frame => Picture.SidesFit frame.width frame.height) (readFrame process) := by
  unfold readFrame
  refine satisfiesM_next fun precision => satisfiesM_readField.bind fun height hHeight => ?_
  refine satisfiesM_readField.bind fun width hWidth => satisfiesM_next fun count => ?_
  refine satisfiesM_next fun _ => satisfiesM_next fun channels => satisfiesM_next fun _ => ?_
  exact SatisfiesM.pure (Picture.sidesFit_of_shorts hWidth hHeight)

namespace Progress

/-- The frame, once there is one, has sides that are counted in 32 bits. -/
def Fits (progress : Progress) : Prop := ∀ frame ∈ progress.frame, Picture.SidesFit frame.width frame.height

variable {progress : Progress}

/-- A scan that is taken over leaves the frame as it is. -/
theorem satisfiesM_complete? (frame : Frame) (scan : Scan) (progress : Progress) (member : Member) :
    SatisfiesM (fun next => next.frame = progress.frame) (complete? frame scan progress member) := by
  unfold complete?
  refine satisfiesM_next fun state => ?_
  split
  · exact SatisfiesM.pure rfl
  · dsimp only
    split <;> exact satisfiesM_next fun samples => SatisfiesM.pure rfl

/-- Scans fill the blocks of a frame and keep it. -/
theorem satisfiesM_readScanBody (progress : Progress) (frame : Frame) (scan : Scan) :
    SatisfiesM (fun read => read.1.frame = progress.frame) (progress.readScanBody frame scan) := by
  have hFrame : (progress.prepare frame).frame = progress.frame := by
    unfold prepare
    split <;> rfl
  unfold readScanBody
  rw [← hFrame]
  obtain ⟨tables, notes, known, channels, blocks⟩ := progress.prepare frame
  refine satisfiesM_next fun _ => satisfiesM_next fun ⟨blocks, marker⟩ => ?_
  have hTold : SatisfiesM (fun next : Progress => next.frame = known)
      (scan.members.foldlM (complete? frame scan) ⟨tables, notes, known, channels, blocks⟩) :=
    List.satisfiesM_foldlM rfl fun handed hHanded member _ =>
      (satisfiesM_complete? frame scan handed member).imp fun hKept => hKept.trans hHanded
  exact (satisfiesM_lift hTold).bind fun progress hKept => SatisfiesM.pure hKept

/-- A segment may bring a frame, and none takes away that its sides fit. -/
theorem satisfiesM_readNext (h : progress.Fits) (marker : UInt8) :
    SatisfiesM (fun read => read.1.Fits) (progress.readNext marker) := by
  unfold readNext
  refine satisfiesM_next fun content => ?_
  dsimp only
  split
  -- a scan
  · split
    · refine satisfiesM_next fun ⟨scan, rest⟩ => satisfiesM_next fun _ => ?_
      refine (satisfiesM_readScanBody progress _ scan).bind fun read hKept => SatisfiesM.pure ?_
      intro frame hFrame
      exact h frame (hKept ▸ hFrame)
    · exact satisfiesM_failure
  split
  -- quantization steps, codes, intervals and notes
  · exact satisfiesM_next fun read => SatisfiesM.pure h
  split
  · exact satisfiesM_next fun read => SatisfiesM.pure h
  split
  · exact satisfiesM_next fun read => satisfiesM_next fun _ => SatisfiesM.pure h
  split
  · exact satisfiesM_next fun notes => SatisfiesM.pure h
  -- a frame
  · refine satisfiesM_next fun process => ?_
    have hRead := satisfiesM_lift (satisfiesM_apply (satisfiesM_readFrame process) content)
    refine hRead.bind fun ⟨frame, rest⟩ hSides => ?_
    refine satisfiesM_next fun _ => satisfiesM_next fun _ => satisfiesM_next fun _ => SatisfiesM.pure ?_
    intro known hKnown
    obtain rfl := Option.mem_some.mp hKnown
    exact hSides

/-- The sides of the frame fit after any number of segments. -/
theorem satisfiesM_readSegments (fuel : ℕ) (marker : UInt8) (h : progress.Fits) :
    SatisfiesM Fits (readSegments fuel marker progress) := by
  induction fuel generalizing marker progress with
  | zero => exact satisfiesM_failure
  | succ fuel ih =>
      unfold readSegments
      split
      · exact SatisfiesM.pure h
      · refine (satisfiesM_readNext h marker).bind fun ⟨next, following⟩ hNext => ?_
        dsimp only
        split <;> exact satisfiesM_next fun marker => ih _ hNext

/-- What is shown of a frame is a whole picture. -/
theorem satisfiesM_picture? (h : progress.Fits) : SatisfiesM Picture.IsWhole progress.picture? := by
  have hFrame : SatisfiesM (fun frame => Picture.SidesFit frame.width frame.height) progress.frame :=
    SatisfiesM_Option_eq.mpr h
  unfold picture?
  refine hFrame.bind fun frame hSides => satisfiesM_next fun planes => satisfiesM_next fun meaning => ?_
  refine SatisfiesM.pure ⟨hSides, ?_⟩
  rw [Rectangle.visit_eq]
  simp

end Progress

/-- A photograph is read as a whole picture. -/
theorem satisfiesM_decode? (bytes : List UInt8) : SatisfiesM Picture.IsWhole (decode? bytes) := by
  have hEmpty : Progress.empty.Fits := nofun
  unfold decode?
  refine satisfiesM_next fun _ => satisfiesM_next fun ⟨marker, rest⟩ => ?_
  have hRead := satisfiesM_apply (Progress.satisfiesM_readSegments bytes.length marker hEmpty) rest
  exact hRead.bind fun ⟨progress, _⟩ hFits => Progress.satisfiesM_picture? hFits

end RayTracer.Jpeg
