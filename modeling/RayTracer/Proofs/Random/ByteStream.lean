import Mathlib
import RayTracer.Proofs.Binary.Words
import RayTracer.Proofs.Random.Period

/-! The bytes of a generator. Its numbers, written one after the other with the lowest byte first, are one stream of
bytes. Whatever is asked of the generator, words, pairs of words or any number of bytes, is read from the front of
what is left of the stream, and a draw is always used up whole. -/

namespace RayTracer.Pcg

/-- The bytes of all numbers that a generator gives, those of a number from the lowest on. -/
def byteStream (g : Pcg) : Stream' UInt8 := fun place =>
  UInt8.ofNat ((output (skip (place / 4) g).state).toNat / 256 ^ (place % 4))

/-- The number that bytes write, the lowest first. -/
def numberOf (bytes : List UInt8) : ℕ := Nat.ofDigits 256 (bytes.map UInt8.toNat)

/-- What is asked of a generator: a number under either of its names, two numbers as one, or bytes for a buffer of
some length, with or without leave to fail. -/
inductive Request where
  | random
  | word
  | pair
  | fill (count : ℕ)
  | tryFill (count : ℕ)

inductive Reply where
  | word (value : UInt32)
  | pair (value : UInt64)
  | filled (bytes : List UInt8)

namespace Request

/-- What a generator answers, and the generator after that. Filling never fails. -/
def answer (request : Request) (g : Pcg) : Reply × Pcg :=
  match request with
  | .random | .word => (.word g.draw.1, g.draw.2)
  | .pair => (.pair g.drawPair.1, g.drawPair.2)
  | .fill count | .tryFill count => (.filled (g.bytes count).1, (g.bytes count).2)

/-- The number of bytes that a request takes from the stream. -/
def consumed : Request → ℕ
  | .random | .word => 4
  | .pair => 8
  | .fill count | .tryFill count => 4 * (count ⌈/⌉ 4)

/-- The reply that bytes of the stream make. -/
def reading (request : Request) (bytes : List UInt8) : Reply :=
  match request with
  | .random | .word => .word (UInt32.ofNat (numberOf bytes))
  | .pair => .pair (UInt64.ofNat (numberOf bytes))
  | .fill count | .tryFill count => .filled (bytes.take count)

end Request

/-- The replies to requests that are made one after the other, and the generator after all of them. -/
def answers : List Request → Pcg → List Reply × Pcg
  | [], g => ([], g)
  | request :: rest, g =>
    let (first, g₁) := request.answer g
    let (others, g₂) := answers rest g₁
    (first :: others, g₂)

/-- The replies that a stream makes whose bytes are used up from the front. -/
def readings : List Request → Stream' UInt8 → List Reply
  | [], _ => []
  | request :: rest, stream =>
    request.reading (stream.take request.consumed) :: readings rest (stream.drop request.consumed)

/-- A buffer filled by chunks of four bytes, of which the last one may be shorter. Each is overwritten with the bytes
of a draw. -/
def fillChunks : List UInt8 → Pcg → List UInt8 × Pcg
  | [], g => ([], g)
  | _ :: _ :: _ :: _ :: buffer, g =>
    let (word, g₁) := g.draw
    let (filled, g₂) := fillChunks buffer g₁
    (ByteOrder.littleEndian.bytes word ++ filled, g₂)
  | chunk, g =>
    let (word, g₁) := g.draw
    ((ByteOrder.littleEndian.bytes word).take chunk.length, g₁)

/-- A buffer filled in pieces of some lengths. -/
def fillPieces : List ℕ → Pcg → List UInt8 × Pcg
  | [], g => ([], g)
  | piece :: rest, g =>
    let (first, g₁) := g.bytes piece
    let (others, g₂) := fillPieces rest g₁
    (first ++ others, g₂)

/-- Draws take four bytes each from the front of the stream. -/
theorem drop_byteStream (count : ℕ) (g : Pcg) : g.byteStream.drop (4 * count) = (skip count g).byteStream := by
  funext place
  have hDraw : (place + 4 * count) / 4 = count + place / 4 := by omega
  have hByte : (place + 4 * count) % 4 = place % 4 := by omega
  change UInt8.ofNat ((output (skip ((place + 4 * count) / 4) g).state).toNat / 256 ^ ((place + 4 * count) % 4)) = _
  rw [hDraw, hByte, skip_add]
  rfl

/-- The stream begins with the bytes of the first draw. -/
theorem take_four_byteStream (g : Pcg) : g.byteStream.take 4 = ByteOrder.littleEndian.bytes (output g.state) := by
  rw [ByteOrder.bytes_littleEndian]
  simp [Stream'.take, Stream'.head, Stream'.tail, Stream'.get, byteStream, skip]

/-- The stream is what the numbers write. -/
theorem take_byteStream (count : ℕ) (g : Pcg) :
    g.byteStream.take (4 * count) = (draws count g).1.flatMap ByteOrder.littleEndian.bytes := by
  induction count generalizing g with
  | zero => rfl
  | succ count ih =>
      rw [Nat.mul_succ, Nat.add_comm, Stream'.take_add, take_four_byteStream, drop_byteStream 1]
      exact congrArg (ByteOrder.littleEndian.bytes (output g.state) ++ ·) (ih g.next)

/-- Bytes are taken from the front of the stream, and the draws for them are used up. -/
theorem bytes_eq (count : ℕ) (g : Pcg) : g.bytes count = (g.byteStream.take count, skip (count ⌈/⌉ 4) g) := by
  have hDraws : (count + 3) / 4 = count ⌈/⌉ 4 := (Nat.ceilDiv_eq_add_pred_div count 4).symm
  have hEnough : count ≤ 4 * ((count + 3) / 4) := by omega
  change (((draws ((count + 3) / 4) g).1.flatMap ByteOrder.littleEndian.bytes).take count,
    (draws ((count + 3) / 4) g).2) = _
  rw [← take_byteStream, Stream'.take_take, Nat.min_eq_right hEnough, snd_draws, hDraws]

/-- The bytes of a word are read as the word. -/
theorem numberOf_bytes (word : UInt32) : numberOf (ByteOrder.littleEndian.bytes word) = word.toNat := by
  have hWord := word.toNat_lt
  rw [ByteOrder.bytes_littleEndian]
  simp only [numberOf, List.map_cons, List.map_nil, UInt8.toNat_ofNat', Nat.ofDigits_cons, Nat.ofDigits_nil]
  omega

/-- Later bytes stand for higher digits. -/
theorem numberOf_append (first second : List UInt8) :
    numberOf (first ++ second) = numberOf first + 256 ^ first.length * numberOf second := by
  rw [numberOf, List.map_append, Nat.ofDigits_append, List.length_map]
  rfl

/-- Two numbers, the low half first, are eight bytes of the stream. -/
theorem toNat_drawPair (g : Pcg) : g.drawPair.1.toNat = numberOf (g.byteStream.take 8) := by
  have hLow := (output g.state).toNat_lt
  have hHigh := (output g.next.state).toNat_lt
  have hEight : g.byteStream.take 8 =
      ByteOrder.littleEndian.bytes (output g.state) ++ ByteOrder.littleEndian.bytes (output g.next.state) := by
    rw [← take_four_byteStream g, ← take_four_byteStream g.next]
    exact (Stream'.take_add 4 4 _).trans (by rw [drop_byteStream 1]; rfl)
  have hPlace : (output g.next.state).toNat <<< 32 % 2 ^ 64 = (output g.next.state).toNat <<< 32 := by
    rw [Nat.shiftLeft_eq]
    omega
  have hLength : (ByteOrder.littleEndian.bytes (output g.state)).length = 4 := rfl
  rw [hEight, numberOf_append, numberOf_bytes, numberOf_bytes, hLength]
  change (((output g.next.state).toUInt64 <<< 32) ||| (output g.state).toUInt64).toNat = _
  rw [UInt64.toNat_or, UInt64.toNat_shiftLeft, UInt32.toNat_toUInt64, UInt32.toNat_toUInt64]
  change (output g.next.state).toNat <<< 32 % 2 ^ 64 ||| (output g.state).toNat = _
  rw [hPlace, ← Nat.shiftLeft_add_eq_or_of_lt hLow, Nat.shiftLeft_eq]
  omega

/-- A request reads its bytes from the front of the stream and leaves what is behind them. -/
theorem answer_eq (request : Request) (g : Pcg) :
    request.answer g =
      (request.reading (g.byteStream.take request.consumed), skip (request.consumed / 4) g) := by
  have hWord : numberOf (g.byteStream.take 4) = (output g.state).toNat := by
    rw [take_four_byteStream, numberOf_bytes]
  cases request with
  | random | word =>
      simp only [Request.reading, Request.consumed, hWord, UInt32.ofNat_toNat]
      rfl
  | pair =>
      simp only [Request.reading, Request.consumed, ← toNat_drawPair, UInt64.ofNat_toNat]
      rfl
  | fill count | tryFill count =>
      have hEnough : count ≤ 4 * (count ⌈/⌉ 4) := by
        rw [Nat.ceilDiv_eq_add_pred_div]
        omega
      simp only [Request.reading, Request.consumed, Stream'.take_take, Nat.min_eq_right hEnough,
        Nat.mul_div_cancel_left _ (by decide : 0 < 4)]
      rw [Request.answer, bytes_eq]

theorem four_dvd_consumed (request : Request) : 4 ∣ request.consumed := by
  cases request with
  | random | word => exact ⟨1, rfl⟩
  | pair => exact ⟨2, rfl⟩
  | fill count | tryFill count => exact Nat.dvd_mul_right 4 _

/-- Requests one after the other read the stream from its front. -/
theorem answers_eq (requests : List Request) (g : Pcg) :
    answers requests g =
      (readings requests g.byteStream, skip ((requests.map Request.consumed).sum / 4) g) := by
  induction requests generalizing g with
  | nil => rfl
  | cons request rest ih =>
      obtain ⟨drawn, hDrawn⟩ := four_dvd_consumed request
      have hTotal : (4 * drawn + (rest.map Request.consumed).sum) / 4 =
          drawn + (rest.map Request.consumed).sum / 4 := by omega
      simp only [answers, answer_eq, ih, readings, List.map_cons, List.sum_cons, hDrawn, drop_byteStream, hTotal,
        skip_add, Nat.mul_div_cancel_left drawn (by decide : 0 < 4)]

/-- Four more bytes take one more draw. -/
theorem ceilDiv_four (drawn count : ℕ) : (4 * drawn + count) ⌈/⌉ 4 = drawn + count ⌈/⌉ 4 := by
  rw [Nat.ceilDiv_eq_add_pred_div, Nat.ceilDiv_eq_add_pred_div]
  omega

/-- Filling chunk by chunk gives the bytes at the front of the stream. -/
theorem fillChunks_eq (buffer : List UInt8) (g : Pcg) : fillChunks buffer g = g.bytes buffer.length := by
  rw [bytes_eq]
  fun_induction fillChunks buffer g with
  | case1 g => rfl
  | case2 a b c d buffer g word g₁ hDraw filled g₂ hFilled ih =>
      obtain ⟨rfl, rfl⟩ := Prod.mk.inj hDraw
      obtain ⟨rfl, rfl⟩ := Prod.mk.inj (hFilled.symm.trans ih)
      have hLength : (a :: b :: c :: d :: buffer).length = 4 * 1 + buffer.length := Nat.add_comm _ 4
      rw [hLength, ceilDiv_four, Stream'.take_add, drop_byteStream, skip_add, take_four_byteStream]
      rfl
  | case3 chunk g hSome hNotMore word g₁ hDraw =>
      obtain ⟨rfl, rfl⟩ := Prod.mk.inj hDraw
      have hFew : chunk.length < 4 := by
        match chunk with
        | [] | [_] | [_, _] | [_, _, _] => simp
        | a :: b :: c :: d :: rest => exact (hNotMore a b c d rest rfl).elim
      have hLength := List.length_pos_iff.mpr hSome
      have hOne : chunk.length ⌈/⌉ 4 = 1 := by
        rw [Nat.ceilDiv_eq_add_pred_div]
        omega
      rw [← take_four_byteStream, Stream'.take_take, Nat.min_eq_right hFew.le, hOne]
      rfl

/-- Pieces of whole numbers lose no bytes of the stream between them. -/
theorem fillPieces_eq {pieces : List ℕ} (hPieces : ∀ piece ∈ pieces, 4 ∣ piece) (g : Pcg) :
    fillPieces pieces g = g.bytes pieces.sum := by
  rw [bytes_eq]
  induction pieces generalizing g with
  | nil => rfl
  | cons piece rest ih =>
      obtain ⟨⟨drawn, rfl⟩, hRest⟩ := List.forall_mem_cons.mp hPieces
      have hPiece : (4 * drawn) ⌈/⌉ 4 = drawn := ceilDiv_four drawn 0
      simp only [fillPieces, bytes_eq, ih hRest, hPiece, List.sum_cons, ceilDiv_four, Stream'.take_add,
        drop_byteStream, skip_add]

/-- All that a generator gives is one stream of bytes. It is what the generator's numbers write, each with its
lowest byte first. Requests of any kinds in any order read it from the front: numbers are the next four bytes, pairs
the next eight, and buffers begin the next whole numbers, of which the bytes that are too many are dropped; the
generator that is left goes on behind them. It makes no difference whether a buffer is filled chunk by chunk, and
filling it in pieces of whole numbers gives the bytes and the generator that filling it at once does. -/
theorem answers_read_byteStream (g : Pcg) :
    (∀ count, (draws count g).1.flatMap ByteOrder.littleEndian.bytes = g.byteStream.take (4 * count)) ∧
      (∀ requests : List Request,
        (answers requests g).1 = readings requests g.byteStream ∧
          (answers requests g).2 = skip ((requests.map Request.consumed).sum / 4) g ∧
          (answers requests g).2.byteStream = g.byteStream.drop (requests.map Request.consumed).sum) ∧
      (∀ buffer, fillChunks buffer g = g.bytes buffer.length) ∧
      ∀ pieces : List ℕ, (∀ piece ∈ pieces, 4 ∣ piece) → fillPieces pieces g = g.bytes pieces.sum := by
  refine ⟨fun count => (take_byteStream count g).symm, fun requests => ?_, fun buffer => fillChunks_eq buffer g,
    fun pieces hPieces => fillPieces_eq hPieces g⟩
  have hWhole : 4 ∣ (requests.map Request.consumed).sum :=
    List.dvd_sum fun count hCount => by
      obtain ⟨request, -, rfl⟩ := List.mem_map.mp hCount
      exact four_dvd_consumed request
  rw [answers_eq, ← drop_byteStream, Nat.mul_div_cancel' hWhole]
  exact ⟨rfl, rfl, rfl⟩

/-- A buffer of twelve bytes in two pieces, behind a number and a pair. -/
theorem answers_read_byteStream_pieces :
    (∀ piece ∈ [4, 8], 4 ∣ piece) ∧
      fillPieces [4, 8] (answers [.word, .pair] (seeded 42 54)).2 = (skip 3 (seeded 42 54)).bytes 12 := by
  have hPieces : ∀ piece ∈ [4, 8], 4 ∣ piece := by decide
  obtain ⟨-, hRequests, -, -⟩ := answers_read_byteStream (seeded 42 54)
  refine ⟨hPieces, ?_⟩
  rw [(hRequests [.word, .pair]).2.1]
  exact (answers_read_byteStream (skip 3 (seeded 42 54))).2.2.2 [4, 8] hPieces

end RayTracer.Pcg
