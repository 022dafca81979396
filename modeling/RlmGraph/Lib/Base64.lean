import Mathlib.Data.List.Basic
import RlmGraph.Lib.PyText
import RlmGraph.Lib.JsonText

/-! # Base64 in the alphabet for URLs

Encoding without padding, and the lenient decoder: characters outside the
alphabet are skipped, and a padding that completes a quadruple ends the text.
What is encoded decodes to itself (`decode_encode`). -/
namespace RlmGraph.Lib.Base64
open RlmGraph.Lib.JsonText (Bytes)

/-! ## Digits -/

def alphabet : List Char :=
  "ABCDEFGHIJKLMNOPQRSTUVWXYZabcdefghijklmnopqrstuvwxyz0123456789-_".toList

def digit (v : Nat) : Char := alphabet.getD v 'A'

/-- The value of a digit of either alphabet. -/
def sextet (c : Char) : Option Nat :=
  if c = '+' then some 62 else if c = '/' then some 63 else alphabet.idxOf? c

theorem sextet_digit : ∀ v < 64, sextet (digit v) = some v := by decide +kernel

theorem digit_ne_pad : ∀ v < 64, digit v ≠ '=' := by decide +kernel

theorem alphabet_ascii : ∀ c ∈ alphabet, c.toNat < 128 := by
  have hall : alphabet.all (·.toNat < 128) = true := by decide +kernel
  simpa using hall

theorem digit_ascii (v : Nat) : (digit v).toNat < 128 := by
  unfold digit
  rw [List.getD_eq_getElem?_getD]
  cases h : alphabet[v]? with
  | none => decide
  | some c => exact alphabet_ascii c (List.mem_of_getElem? h)

/-! ## Encoding -/

def encodeChars : Bytes → List Char
  | [] => []
  | [a] => [digit (a.toNat / 4), digit (a.toNat % 4 * 16)]
  | [a, b] =>
    [digit (a.toNat / 4), digit (a.toNat % 4 * 16 + b.toNat / 16), digit (b.toNat % 16 * 4)]
  | a :: b :: c :: rest =>
    digit (a.toNat / 4) :: digit (a.toNat % 4 * 16 + b.toNat / 16) ::
      digit (b.toNat % 16 * 4 + c.toNat / 64) :: digit (c.toNat % 64) :: encodeChars rest

/-- `urlsafe_b64encode(data).rstrip(b"=")`. -/
def encode (data : Bytes) : String := String.ofList (encodeChars data)

theorem encodeChars_digits (data : Bytes) : ∀ c ∈ encodeChars data, ∃ v < 64, c = digit v := by
  fun_induction encodeChars data with
  | case1 => simp
  | case2 a =>
    have ha := a.toNat_lt
    simp only [List.mem_cons, List.not_mem_nil, or_false]
    rintro c (rfl | rfl)
    · exact ⟨_, by omega, rfl⟩
    · exact ⟨_, by omega, rfl⟩
  | case3 a b =>
    have ha := a.toNat_lt
    have hb := b.toNat_lt
    simp only [List.mem_cons, List.not_mem_nil, or_false]
    rintro c (rfl | rfl | rfl)
    · exact ⟨_, by omega, rfl⟩
    · exact ⟨_, by omega, rfl⟩
    · exact ⟨_, by omega, rfl⟩
  | case4 a b c rest ih =>
    have ha := a.toNat_lt
    have hb := b.toNat_lt
    have hc := c.toNat_lt
    simp only [List.mem_cons]
    rintro d (rfl | rfl | rfl | rfl | hd)
    · exact ⟨_, by omega, rfl⟩
    · exact ⟨_, by omega, rfl⟩
    · exact ⟨_, by omega, rfl⟩
    · exact ⟨_, by omega, rfl⟩
    · exact ih d hd

theorem encode_ascii (data : Bytes) : PyText.isAscii (encode data) = true := by
  unfold PyText.isAscii encode
  rw [String.toList_ofList, List.all_eq_true]
  intro c hc
  obtain ⟨v, -, rfl⟩ := encodeChars_digits data c hc
  exact decide_eq_true (digit_ascii v)

/-! ## Decoding -/

/-- The digits of the current quadruple so far, and their last bits. -/
inductive Quad where
  | start
  | one (left : Nat)
  | two (left : Nat)
  | three (left : Nat)

def Quad.pos : Quad → Nat
  | .start => 0
  | .one _ => 1
  | .two _ => 2
  | .three _ => 3

/-- One more digit, and the byte it completes. -/
def Quad.push : Quad → Nat → Quad × Bytes
  | .start, v => (.one v, [])
  | .one left, v => (.two (v % 16), [UInt8.ofNat (left * 4 + v / 16)])
  | .two left, v => (.three (v % 4), [UInt8.ofNat (left * 16 + v / 4)])
  | .three left, v => (.start, [UInt8.ofNat (left * 64 + v)])

/-- The decoder between two characters; `none` is `binascii.Error`. -/
def decodeChars : Quad → Nat → List Char → Option Bytes
  | .start, _, [] => some []
  | _, _, [] => none
  | quad, pads, c :: rest =>
    if c = '=' then
      if 2 ≤ quad.pos then
        -- the padding completes the quadruple; what follows is not looked at
        if 4 ≤ quad.pos + (pads + 1) then some [] else decodeChars quad (pads + 1) rest
      else decodeChars quad pads rest
    else
      match sextet c with
      | none => decodeChars quad pads rest
      | some v => (decodeChars (quad.push v).1 0 rest).map ((quad.push v).2 ++ ·)

/-- `urlsafe_b64decode(value + "=" * (-len(value) % 4))`. -/
def decode (value : String) : Option Bytes :=
  if PyText.isAscii value then
    decodeChars .start 0
      (value.toList ++ List.replicate ((4 - value.toList.length % 4) % 4) '=')
  else none

theorem decodeChars_digit (quad : Quad) (pads : Nat) {v : Nat} (h : v < 64) (rest : List Char) :
    decodeChars quad pads (digit v :: rest) =
      (decodeChars (quad.push v).1 0 rest).map ((quad.push v).2 ++ ·) := by
  cases quad <;> rw [decodeChars, if_neg (digit_ne_pad v h), sextet_digit v h]

/-- The digits of a byte and a half, or less, put together again. -/
theorem ofNat_toNat_parts (x : UInt8) {n : Nat} (h : n = x.toNat) : UInt8.ofNat n = x := by
  rw [h, UInt8.ofNat_toNat]

theorem decodeChars_encodeChars (data : Bytes) :
    decodeChars .start 0 (encodeChars data ++
      List.replicate ((4 - (encodeChars data).length % 4) % 4) '=') = some data := by
  fun_induction encodeChars data with
  | case1 => rfl
  | case2 a =>
    have ha := a.toNat_lt
    have hbyte : UInt8.ofNat (a.toNat / 4 * 4 + a.toNat % 4 * 16 / 16) = a :=
      ofNat_toNat_parts a (by omega)
    rw [List.cons_append, decodeChars_digit _ _ (by omega), List.cons_append,
      decodeChars_digit _ _ (by omega)]
    simp only [Quad.push, hbyte]
    rfl
  | case3 a b =>
    have ha := a.toNat_lt
    have hb := b.toNat_lt
    have hfirst : UInt8.ofNat (a.toNat / 4 * 4 + (a.toNat % 4 * 16 + b.toNat / 16) / 16) = a :=
      ofNat_toNat_parts a (by omega)
    have hsecond : UInt8.ofNat ((a.toNat % 4 * 16 + b.toNat / 16) % 16 * 16 +
        b.toNat % 16 * 4 / 4) = b := ofNat_toNat_parts b (by omega)
    rw [List.cons_append, decodeChars_digit _ _ (by omega), List.cons_append,
      decodeChars_digit _ _ (by omega), List.cons_append, decodeChars_digit _ _ (by omega)]
    simp only [Quad.push, hfirst, hsecond]
    rfl
  | case4 a b c rest ih =>
    have ha := a.toNat_lt
    have hb := b.toNat_lt
    have hc := c.toNat_lt
    have hfirst : UInt8.ofNat (a.toNat / 4 * 4 + (a.toNat % 4 * 16 + b.toNat / 16) / 16) = a :=
      ofNat_toNat_parts a (by omega)
    have hsecond : UInt8.ofNat ((a.toNat % 4 * 16 + b.toNat / 16) % 16 * 16 +
        (b.toNat % 16 * 4 + c.toNat / 64) / 4) = b := ofNat_toNat_parts b (by omega)
    have hthird : UInt8.ofNat ((b.toNat % 16 * 4 + c.toNat / 64) % 4 * 64 + c.toNat % 64) = c :=
      ofNat_toNat_parts c (by omega)
    have hpad : ∀ n, (4 - (n + 4) % 4) % 4 = (4 - n % 4) % 4 := by omega
    rw [List.cons_append, decodeChars_digit _ _ (by omega), List.cons_append,
      decodeChars_digit _ _ (by omega), List.cons_append, decodeChars_digit _ _ (by omega),
      List.cons_append, decodeChars_digit _ _ (by omega)]
    simp only [Quad.push, hfirst, hsecond, hthird, List.length_cons, hpad, ih]
    rfl

/-- **Round trip.** -/
theorem decode_encode (data : Bytes) : decode (encode data) = some data := by
  unfold decode
  rw [if_pos (encode_ascii data)]
  unfold encode
  rw [String.toList_ofList]
  exact decodeChars_encodeChars data

theorem encode_inj {data other : Bytes} : encode data = encode other ↔ data = other := by
  constructor
  · intro h
    have hdata := decode_encode data
    rw [h, decode_encode] at hdata
    exact (Option.some.inj hdata).symm
  · rintro rfl
    rfl

example : decode "aGk" = some [104, 105] := by decide +kernel

end RlmGraph.Lib.Base64
