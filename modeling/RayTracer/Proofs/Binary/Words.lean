import Mathlib
import RayTracer.Binary.ByteOrder

/-! Words and the bytes that spell them. In both byte orders the four bytes are the digits of the word to
the base 256, so spelling a word and reading it back give the word again. -/

namespace RayTracer.ByteOrder

/-- Bits that do not overlap are joined by adding. -/
private theorem or_shiftLeft_eq_add {low high count : Nat} (hLow : low < 2 ^ count) :
    low ||| high <<< count = low + high * 2 ^ count := by
  rw [Nat.or_comm, ← Nat.shiftLeft_add_eq_or_of_lt hLow, Nat.shiftLeft_eq, Nat.add_comm]

/-- The lowest byte first is the lowest digit first. -/
theorem toNat_word_littleEndian (a b c d : UInt8) :
    (littleEndian.word a b c d).toNat =
      a.toNat + b.toNat * 2 ^ 8 + c.toNat * 2 ^ 16 + d.toNat * 2 ^ 24 := by
  have ha := a.toNat_lt
  have hb := b.toNat_lt
  have hc := c.toNat_lt
  have hd := d.toNat_lt
  have hShift (x count : Nat) (hx : x * 2 ^ count < 2 ^ 32) : x <<< count % 2 ^ 32 = x <<< count :=
    Nat.mod_eq_of_lt (by rwa [Nat.shiftLeft_eq])
  simp only [word, UInt32.toNat_or, UInt32.toNat_shiftLeft, UInt8.toNat_toUInt32]
  change a.toNat ||| b.toNat <<< 8 % 2 ^ 32 ||| c.toNat <<< 16 % 2 ^ 32 ||| d.toNat <<< 24 % 2 ^ 32 = _
  rw [hShift _ 8 (by omega), hShift _ 16 (by omega), hShift _ 24 (by omega)]
  have hTwo : a.toNat ||| b.toNat <<< 8 = a.toNat + b.toNat * 2 ^ 8 := or_shiftLeft_eq_add ha
  have hThree : a.toNat + b.toNat * 2 ^ 8 ||| c.toNat <<< 16 =
      a.toNat + b.toNat * 2 ^ 8 + c.toNat * 2 ^ 16 := or_shiftLeft_eq_add (by omega)
  rw [hTwo, hThree, or_shiftLeft_eq_add (by omega)]

/-- The other byte order reads the same bytes from the other end. -/
theorem word_bigEndian (a b c d : UInt8) : bigEndian.word a b c d = littleEndian.word d c b a := rfl

/-- The digits of a word to the base 256, the lowest first. -/
theorem bytes_littleEndian (w : UInt32) :
    littleEndian.bytes w = [UInt8.ofNat w.toNat, UInt8.ofNat (w.toNat / 2 ^ 8),
      UInt8.ofNat (w.toNat / 2 ^ 16), UInt8.ofNat (w.toNat / 2 ^ 24)] := by
  have hByte (count : UInt32) (hCount : count.toNat < 32) :
      (w >>> count).toUInt8 = UInt8.ofNat (w.toNat / 2 ^ count.toNat) := by
    apply UInt8.toNat_inj.mp
    simp [Nat.shiftRight_eq_div_pow, Nat.mod_eq_of_lt hCount]
  simp only [bytes, hByte 8 (by decide), hByte 16 (by decide), hByte 24 (by decide)]
  rfl

theorem bytes_bigEndian (w : UInt32) : bigEndian.bytes w = (littleEndian.bytes w).reverse := rfl

/-- A word is spelled by four bytes, which give the word back. -/
theorem exists_bytes_eq (order : ByteOrder) (w : UInt32) :
    ∃ a b c d, order.bytes w = [a, b, c, d] ∧ order.word a b c d = w := by
  have hWord := w.toNat_lt
  have hBack : littleEndian.word (UInt8.ofNat w.toNat) (UInt8.ofNat (w.toNat / 2 ^ 8))
      (UInt8.ofNat (w.toNat / 2 ^ 16)) (UInt8.ofNat (w.toNat / 2 ^ 24)) = w := by
    apply UInt32.toNat_inj.mp
    rw [toNat_word_littleEndian]
    simp only [UInt8.toNat_ofNat']
    omega
  cases order with
  | littleEndian => exact ⟨_, _, _, _, bytes_littleEndian w, hBack⟩
  | bigEndian =>
      refine ⟨_, _, _, _, ?_, (word_bigEndian _ _ _ _).trans hBack⟩
      rw [bytes_bigEndian, bytes_littleEndian]
      rfl

/-- Four bytes spell a word, which is spelled by them again. -/
theorem bytes_word (order : ByteOrder) (a b c d : UInt8) : order.bytes (order.word a b c d) = [a, b, c, d] := by
  have hByte {n : Nat} {x : UInt8} (h : n % 2 ^ 8 = x.toNat) : UInt8.ofNat n = x := by
    apply UInt8.toNat_inj.mp
    rw [UInt8.toNat_ofNat', h]
  have hDigits (a b c d : UInt8) : littleEndian.bytes (littleEndian.word a b c d) = [a, b, c, d] := by
    have ha := a.toNat_lt
    have hb := b.toNat_lt
    have hc := c.toNat_lt
    have hd := d.toNat_lt
    rw [bytes_littleEndian, toNat_word_littleEndian, hByte (x := a) (by omega), hByte (x := b) (by omega),
      hByte (x := c) (by omega), hByte (x := d) (by omega)]
  cases order with
  | littleEndian => exact hDigits a b c d
  | bigEndian =>
      rw [word_bigEndian, bytes_bigEndian, hDigits]
      rfl

end RayTracer.ByteOrder
