import Mathlib
import RayTracer.Image.Bitmap.Reader
import RayTracer.Image.Png.Reader
import RayTracer.Image.Radiance
import RayTracer.Image.Targa.Reader
import RayTracer.Proofs.Binary.Readers
import RayTracer.Proofs.Image.Tabulation
import RayTracer.Proofs.Text.Numerals

/-! Whole pictures. What is read from the file of a picture has a pixel at every position of its size, however
the file stores its pixels: they are drawn on a blank picture, listed row by row, or collected until a row is
full. Sides are counted in 32 bits, so the pixels can be counted as well. -/

namespace RayTracer

open ByteReader

namespace Picture

/-- Sides that are counted in 32 bits. -/
def SidesFit (width height : ℕ) : Prop := width < UInt32.size ∧ height < UInt32.size

/-- A picture with a pixel at every position of its size. -/
structure IsWhole (picture : Picture) : Prop where
  sides : SidesFit picture.width picture.height
  size_pixels : picture.pixels.size = picture.width * picture.height

/-- Sides of two bytes fit into four. -/
theorem sidesFit_of_shorts {width height : ℕ} (hWidth : width < UInt16.size) (hHeight : height < UInt16.size) :
    SidesFit width height :=
  ⟨hWidth.trans (by decide), hHeight.trans (by decide)⟩

theorem size_pixels_upsideDown {picture : Picture}
    (h : picture.pixels.size = picture.width * picture.height) :
    picture.upsideDown.pixels.size = picture.width * picture.height := by
  have hRow (row : ℕ) (hLt : row < picture.height) : (picture.row row).size = picture.width := by
    have hEnd : (row + 1) * picture.width ≤ picture.pixels.size := by
      rw [h, mul_comm]
      exact Nat.mul_le_mul_left _ hLt
    rw [Picture.row, Array.size_extract, Nat.min_eq_left hEnd, Nat.succ_mul, Nat.add_sub_cancel_left]
  have hRows : ((Array.range picture.height).reverse.map fun row => (picture.row row).size) =
      Array.replicate picture.height picture.width := by
    refine Array.eq_replicate_iff.mpr ⟨by simp, fun size hMem => ?_⟩
    obtain ⟨row, hPlace, rfl⟩ := Array.mem_map.mp hMem
    exact hRow row (by simpa using hPlace)
  rw [Picture.upsideDown, Array.size_flatMap, hRows, Array.sum_replicate_nat, mul_comm]

/-- Rows can come in either order. -/
theorem isWhole_oriented {picture : Picture} (h : picture.IsWhole) (startsAtTop : Bool) :
    (if startsAtTop then picture else picture.upsideDown).IsWhole := by
  split
  · exact h
  · exact ⟨h.sides, size_pixels_upsideDown h.size_pixels⟩

/-- Drawing does not change how many pixels there are. -/
theorem size_foldl_setIfInBounds {β : Type} (place : β → ℕ) (color : β → Rgb8) (items : List β)
    (pixels : Array Rgb8) :
    (items.foldl (fun pixels item => pixels.setIfInBounds (place item) (color item)) pixels).size =
      pixels.size := by
  induction items generalizing pixels with
  | nil => rfl
  | cons item items ih => rw [List.foldl_cons, ih, Array.size_setIfInBounds]

end Picture

namespace Png

theorem satisfiesM_readHeader :
    SatisfiesM (fun header => Picture.SidesFit header.width header.height) readHeader := by
  unfold readHeader
  refine (satisfiesM_nat32 _).bind fun width hWidth => (satisfiesM_nat32 _).bind fun height hHeight => ?_
  refine satisfiesM_next fun depth => satisfiesM_next fun number => satisfiesM_next fun samples => ?_
  refine satisfiesM_next fun methods => satisfiesM_next fun interlacing => satisfiesM_next fun _ => ?_
  exact SatisfiesM.pure ⟨hWidth, hHeight⟩

section Drawing

variable {header : Header} {palette : Array Rgb8} {data : Array UInt8} {count : ℕ} {progress : Progress}

/-- A row is drawn over pixels that are there. -/
theorem satisfiesM_drawRow? (pass : Pass) (hSize : progress.pixels.size = count) (row : ℕ) :
    SatisfiesM (fun next => next.pixels.size = count) (drawRow? header palette data pass progress row) := by
  unfold drawRow?
  refine satisfiesM_next fun filter => satisfiesM_next fun predict => SatisfiesM.pure ?_
  exact (Picture.size_foldl_setIfInBounds _ _ _ _).trans hSize

theorem satisfiesM_drawPass? (hSize : progress.pixels.size = count) (pass : Pass) :
    SatisfiesM (fun next => next.pixels.size = count) (drawPass? header palette data progress pass) :=
  List.satisfiesM_foldlM hSize fun _ hHanded row _ => satisfiesM_drawRow? pass hHanded row

/-- All passes are drawn over a blank picture of the size in the header. -/
theorem satisfiesM_pixels? :
    SatisfiesM (fun pixels => pixels.size = header.width * header.height) (pixels? header palette data) := by
  have hDrawn : SatisfiesM (fun progress : Progress => progress.pixels.size = header.width * header.height)
      (header.passes.foldlM (drawPass? header palette data)
        ⟨Array.replicate (header.width * header.height) ⟨0, 0, 0⟩, 0, #[]⟩) :=
    List.satisfiesM_foldlM Array.size_replicate fun _ hHanded pass _ => satisfiesM_drawPass? hHanded pass
  unfold pixels?
  exact satisfiesM_next fun _ => hDrawn.bind fun progress hSize => SatisfiesM.pure hSize

end Drawing

/-- A PNG file is read as a whole picture. -/
theorem satisfiesM_read : SatisfiesM Picture.IsWhole read := by
  unfold read
  refine satisfiesM_next fun start => satisfiesM_next fun _ => satisfiesM_next fun first => ?_
  refine satisfiesM_next fun _ => ?_
  refine (satisfiesM_lift (satisfiesM_apply satisfiesM_readHeader _)).bind fun ⟨header, _⟩ hSides => ?_
  refine satisfiesM_next fun rest => satisfiesM_next fun preamble => satisfiesM_next fun _ => ?_
  refine satisfiesM_next fun _ => satisfiesM_next fun rest => satisfiesM_next fun data => ?_
  refine satisfiesM_next fun unpacked => (satisfiesM_lift satisfiesM_pixels?).bind fun pixels hSize => ?_
  exact SatisfiesM.pure ⟨hSides, hSize⟩

end Png

namespace Bitmap

theorem satisfiesM_readShortHeader :
    SatisfiesM (fun layout => Picture.SidesFit layout.width layout.height) readShortHeader := by
  unfold readShortHeader
  refine satisfiesM_nat16.bind fun width hWidth => satisfiesM_nat16.bind fun height hHeight => ?_
  refine satisfiesM_next fun planes => satisfiesM_next fun _ => satisfiesM_next fun bits => ?_
  dsimp only
  split <;> exact satisfiesM_next fun storage => SatisfiesM.pure (Picture.sidesFit_of_shorts hWidth hHeight)

theorem satisfiesM_readLongHeader (headerLength : ℕ) :
    SatisfiesM (fun layout => Picture.SidesFit layout.width layout.height) (readLongHeader headerLength) := by
  unfold readLongHeader
  refine (satisfiesM_nat32 _).bind fun width hWidth => (satisfiesM_nat32 _).bind fun height hHeight => ?_
  refine satisfiesM_next fun _ => satisfiesM_next fun planes => satisfiesM_next fun _ => ?_
  refine satisfiesM_next fun bits => satisfiesM_next fun compression => satisfiesM_next fun _ => ?_
  refine satisfiesM_next fun _ => satisfiesM_next fun paletteSize => satisfiesM_next fun _ => ?_
  -- A negative height is the distance from the least number of more than four bytes, which no height reaches.
  have hMagnitude : (if signLimit ≤ height then UInt32.size - height else height) < UInt32.size := by
    split
    next hTop =>
        have hPos : 0 < signLimit := by decide
        omega
    next => exact hHeight
  exact satisfiesM_next fun storage => SatisfiesM.pure ⟨hWidth, by simpa using hMagnitude⟩

theorem satisfiesM_readHeader :
    SatisfiesM (fun read => Picture.SidesFit read.2.width read.2.height) readHeader := by
  unfold readHeader
  refine satisfiesM_next fun length => ?_
  split
  · exact satisfiesM_readShortHeader.bind fun layout hSides => SatisfiesM.pure hSides
  · split
    · exact (satisfiesM_readLongHeader length).bind fun layout hSides => SatisfiesM.pure hSides
    · exact satisfiesM_failure

/-- Colors are drawn on a canvas that keeps its size. -/
theorem satisfiesM_draw? (canvas : Canvas) (width : ℕ) (colors : List Rgb8) :
    SatisfiesM (fun next => next.pixels.size = canvas.pixels.size) (canvas.draw? width colors) := by
  unfold Canvas.draw?
  split
  · exact SatisfiesM.pure (Picture.size_foldl_setIfInBounds _ _ _ _)
  · exact satisfiesM_none

/-- Moving on changes no pixel of the canvas. -/
theorem satisfiesM_skip? (canvas : Canvas) (width height columns rows : ℕ) :
    SatisfiesM (fun next => next.pixels.size = canvas.pixels.size)
      (canvas.skip? width height columns rows) := by
  unfold Canvas.skip?
  split
  · exact SatisfiesM.pure rfl
  · exact satisfiesM_none

/-- Runs draw on the canvas that they begin with. -/
theorem satisfiesM_readRuns (layout : Layout) (palette : Array Rgb8) (bits fuel : ℕ) (canvas : Canvas) :
    SatisfiesM (fun pixels => pixels.size = canvas.pixels.size)
      (readRuns layout palette bits fuel canvas) := by
  induction fuel generalizing canvas with
  | zero => exact satisfiesM_failure
  | succ fuel ih =>
      unfold readRuns
      split
      · exact SatisfiesM.pure rfl
      · refine satisfiesM_next fun step => ?_
        cases step with
        | endOfPicture => exact SatisfiesM.pure rfl
        | endOfRow => exact ih { canvas with column := 0, row := canvas.row + 1 }
        | pixels positions =>
            refine (satisfiesM_lift (satisfiesM_draw? canvas _ _)).bind fun next hSize => ?_
            exact (ih next).imp fun hPixels => hPixels.trans hSize
        | skip columns rows =>
            refine (satisfiesM_lift (satisfiesM_skip? canvas _ _ _ _)).bind fun next hSize => ?_
            exact (ih next).imp fun hPixels => hPixels.trans hSize

/-- Whatever is drawn, the canvas keeps the size that the layout gives it. -/
theorem satisfiesM_pixels? (layout : Layout) (palette : Array Rgb8) (data : List UInt8) :
    SatisfiesM (fun pixels => pixels.size = layout.width * layout.height) (pixels? layout palette data) := by
  unfold pixels?
  split
  next bits _ =>
      have hRuns := satisfiesM_apply (satisfiesM_readRuns layout palette bits (data.length + 1)
        (.black layout.width layout.height)) data
      rw [← Option.map_eq_map]
      exact hRuns.map fun hSize => hSize.trans Array.size_replicate
  next =>
      unfold rowPixels?
      dsimp only
      split
      · exact SatisfiesM.pure (by simp [Image.coordinates])
      · exact satisfiesM_none

/-- A bitmap is read as a whole picture. -/
theorem satisfiesM_decode? (file : List UInt8) : SatisfiesM Picture.IsWhole (decode? file) := by
  unfold decode?
  refine satisfiesM_next fun ⟨dataStart, rest⟩ => ?_
  refine (satisfiesM_apply satisfiesM_readHeader rest).bind fun ⟨⟨headerLength, layout⟩, _⟩ hSides => ?_
  have hColored (palette : Array Rgb8) : SatisfiesM Picture.IsWhole (do
      if layout.width = 0 then return ⟨0, layout.height, #[]⟩
      let picture : Picture := ⟨layout.width, layout.height, ← pixels? layout palette (file.drop dataStart)⟩
      return if layout.startsAtTop then picture else picture.upsideDown : Option Picture) := by
    split
    · have hNone : 0 < UInt32.size := by decide
      exact SatisfiesM.pure ⟨⟨hNone, hSides.2⟩, (Nat.zero_mul _).symm⟩
    · refine (satisfiesM_pixels? _ _ _).bind fun pixels hSize => SatisfiesM.pure ?_
      exact Picture.isWhole_oriented ⟨hSides, hSize⟩ _
  refine satisfiesM_next fun _ => ?_
  dsimp only
  split <;> exact satisfiesM_next fun read => hColored read.1

end Bitmap

namespace Targa

theorem satisfiesM_readHeader :
    SatisfiesM (fun header => Picture.SidesFit header.width header.height) readHeader := by
  unfold readHeader
  refine satisfiesM_next fun commentLength => satisfiesM_next fun mapKind => satisfiesM_next fun kind => ?_
  refine satisfiesM_next fun mapOrigin => satisfiesM_next fun mapLength => ?_
  refine satisfiesM_next fun mapEntryBits => satisfiesM_next fun _ => ?_
  refine satisfiesM_nat16.bind fun width hWidth => satisfiesM_nat16.bind fun height hHeight => ?_
  refine satisfiesM_next fun depth => satisfiesM_next fun descriptor => ?_
  exact SatisfiesM.pure (Picture.sidesFit_of_shorts hWidth hHeight)

variable {header : Header} {channels : Channels}

/-- There is an index for every position. -/
theorem satisfiesM_mappedPixels? (map stored : Array UInt8) :
    SatisfiesM (fun pixels => pixels.length = header.width * header.height)
      (mappedPixels? header channels map stored) := by
  unfold mappedPixels?
  refine satisfiesM_next fun _ => (satisfiesM_mapM _ _).imp fun hLength => ?_
  rw [hLength, List.length_range]

/-- Pixels that are stored plainly are listed for every position. -/
theorem length_plainPixels (stored : Array UInt8) :
    (plainPixels header channels stored).length = header.width * header.height := by
  simp [plainPixels]

/-- A Targa file is read as a whole picture. -/
theorem satisfiesM_read : SatisfiesM Picture.IsWhole read := by
  unfold read
  refine satisfiesM_readHeader.bind fun header hSides => ?_
  refine satisfiesM_next fun _ => satisfiesM_next fun map => satisfiesM_next fun channels => ?_
  refine satisfiesM_next fun _ => satisfiesM_next fun stored => ?_
  have hOriented {pixels : List Rgb8} (hLength : pixels.length = header.width * header.height) :
      SatisfiesM Picture.IsWhole (do
        let picture : Picture := ⟨header.width, header.height, pixels.toArray⟩
        return if header.startsAtTop then picture else picture.upsideDown : ByteReader Picture) :=
    SatisfiesM.pure (Picture.isWhole_oriented ⟨hSides, hLength⟩ _)
  dsimp only
  split
  · exact (satisfiesM_lift (satisfiesM_mappedPixels? _ _)).bind fun pixels hLength => hOriented hLength
  · have hPlain : SatisfiesM (fun pixels => pixels.length = header.width * header.height)
        (pure (plainPixels header channels stored) : ByteReader (List Rgb8)) :=
      SatisfiesM.pure (length_plainPixels stored)
    exact hPlain.bind fun pixels hLength => hOriented hLength

end Targa

namespace Radiance

theorem satisfiesM_size? (line : List Char) :
    SatisfiesM (fun size => Picture.SidesFit size.1 size.2) (size? line) := by
  have hCount (text : List Char) : SatisfiesM (· < UInt32.size) (Text.readCount? UInt32.size text) :=
    SatisfiesM_Option_eq.mpr fun count hRead => (Text.readCount?_eq_some_iff.mp hRead).2
  unfold size?
  split
  · refine satisfiesM_next fun _ => (hCount _).bind fun height hHeight => ?_
    exact (hCount _).bind fun width hWidth => SatisfiesM.pure ⟨hWidth, hHeight⟩
  · exact satisfiesM_none

theorem satisfiesM_readHeader : SatisfiesM (fun size => Picture.SidesFit size.1 size.2) readHeader := by
  unfold readHeader
  refine satisfiesM_next fun start => satisfiesM_next fun _ => satisfiesM_next fun _ => ?_
  refine satisfiesM_next fun rest => satisfiesM_next fun _ => satisfiesM_next fun line => ?_
  exact satisfiesM_lift (satisfiesM_size? _)

variable {width : ℕ}

/-- Colors are collected up to the width and never beyond it. -/
theorem satisfiesM_readColors (fuel unit : ℕ) (last : SharedExponent) {colors : Array SharedExponent}
    (hFew : colors.size ≤ width) :
    SatisfiesM (fun row => row.size = width) (readColors width fuel unit last colors) := by
  induction fuel generalizing unit last colors with
  | zero => exact satisfiesM_failure
  | succ fuel ih =>
      unfold readColors
      split
      next hEnough => exact SatisfiesM.pure (hFew.antisymm hEnough)
      next hMore =>
          refine satisfiesM_next fun color => ?_
          split
          · refine (satisfiesM_guard _).bind fun _ hFits => ih _ _ ?_
            simpa using hFits
          · refine ih _ _ ?_
            rw [Array.size_push]
            omega

/-- A row is collected until it is as wide as the picture. -/
theorem satisfiesM_readRow (hWidth : 0 < width) : SatisfiesM (fun row => row.size = width) (readRow width) := by
  unfold readRow
  refine satisfiesM_next fun first => ?_
  split
  · unfold readChannels
    refine satisfiesM_next fun rest => satisfiesM_next fun r => satisfiesM_next fun g => ?_
    refine satisfiesM_next fun b => satisfiesM_next fun exponent => SatisfiesM.pure ?_
    rw [Array.size_map, Array.size_range]
  · exact satisfiesM_next fun _ => satisfiesM_next fun rest => satisfiesM_readColors _ _ _ hWidth

/-- Every row adds as many pixels as the picture is wide. -/
theorem satisfiesM_readRows (hWidth : 0 < width) (count : ℕ) (pixels : Array Rgb8) :
    SatisfiesM (fun all => all.size = pixels.size + width * count) (readRows width count pixels) := by
  induction count generalizing pixels with
  | zero => exact SatisfiesM.pure rfl
  | succ count ih =>
      unfold readRows
      refine (satisfiesM_readRow hWidth).bind fun row hRow => (ih _).imp fun hSize => ?_
      rw [hSize, Array.size_append, Array.size_map, hRow]
      ring

/-- A file of shared exponents is read as a whole picture. -/
theorem satisfiesM_read : SatisfiesM Picture.IsWhole read := by
  unfold read
  refine satisfiesM_readHeader.bind fun ⟨width, height⟩ hSides => satisfiesM_next fun _ => ?_
  have hRows : SatisfiesM (fun pixels => pixels.size = width * height)
      (readRows width (if width = 0 then 0 else height) #[]) := by
    by_cases hWidth : width = 0
    · simp only [hWidth, ↓reduceIte, zero_mul]
      exact SatisfiesM.pure rfl
    · simp only [hWidth, ↓reduceIte]
      refine (satisfiesM_readRows (Nat.pos_of_ne_zero hWidth) height #[]).imp fun hSize => ?_
      simpa using hSize
  exact hRows.bind fun pixels hSize => SatisfiesM.pure ⟨hSides, hSize⟩

end Radiance

end RayTracer
