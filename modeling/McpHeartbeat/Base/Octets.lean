import Mathlib.Tactic.Common

/-!
# Text as octets

* `hex`, `unhex`: hexadecimal digits;
* `percentEncode`, `percentDecode`: octets written as characters, those outside a safe set escaped;
  **`percentDecode_percentEncode`**, `mem_percentEncode`;
* `decodeReplace`: UTF-8, where each maximal part of a malformed sequence is read as one
  replacement character; **`decodeReplace_utf8`**.
-/

namespace Base

/-! ## Percent-encoding -/

/-- A hexadecimal digit, in upper case. -/
def hex (n : Fin 16) : Char := "0123456789ABCDEF".toList.get ⟨n, n.isLt⟩

/-- The value of a hexadecimal digit, in either case. -/
def unhex (c : Char) : Option ℕ :=
  if '0' ≤ c ∧ c ≤ '9' then some (c.toNat - '0'.toNat)
  else if 'A' ≤ c ∧ c ≤ 'F' then some (c.toNat - 'A'.toNat + 10)
  else if 'a' ≤ c ∧ c ≤ 'f' then some (c.toNat - 'a'.toNat + 10)
  else none

theorem unhex_hex : ∀ n : Fin 16, unhex (hex n) = some n := by decide

/-- An octet, as it stands if it is safe. -/
def encodeOctet (safe : UInt8 → Bool) (b : UInt8) : List Char :=
  if safe b then [Char.ofNat b.toNat]
  else ['%', hex ⟨b.toNat / 16, by have := b.toNat_lt; omega⟩, hex ⟨b.toNat % 16, by omega⟩]

/-- Octets as characters. -/
def percentEncode (safe : UInt8 → Bool) (bs : List UInt8) : List Char :=
  bs.flatMap (encodeOctet safe)

/-- Characters as octets: an escape is read as the octet that it names. -/
def percentDecode : List Char → List UInt8
  | [] => []
  | [c] => [.ofNat c.toNat]
  | [c, d] => [.ofNat c.toNat, .ofNat d.toNat]
  | c :: d :: e :: s =>
    match unhex d, unhex e with
    | some high, some low =>
      if c = '%' then .ofNat (16 * high + low) :: percentDecode s
      else .ofNat c.toNat :: percentDecode (d :: e :: s)
    | _, _ => .ofNat c.toNat :: percentDecode (d :: e :: s)

theorem percentDecode_cons {c : Char} (h : c ≠ '%') (s : List Char) :
    percentDecode (c :: s) = .ofNat c.toNat :: percentDecode s := by
  match s with
  | [] => rfl
  | [_] => rfl
  | d :: e :: s =>
    rw [percentDecode]
    split
    · rw [if_neg h]
    · rfl

theorem percentDecode_escape (high low : Fin 16) (s : List Char) :
    percentDecode ('%' :: hex high :: hex low :: s) =
      .ofNat (16 * high + low) :: percentDecode s := by
  rw [percentDecode, unhex_hex, unhex_hex]
  exact if_pos rfl

/-- Characters without escapes are octets as they stand. -/
theorem percentDecode_of_no_escape {cs : List Char} (h : '%' ∉ cs) :
    percentDecode cs = cs.map fun c => .ofNat c.toNat := by
  induction cs with
  | nil => rfl
  | cons c cs ih =>
    have hc : c ≠ '%' := fun heq => h (heq ▸ List.mem_cons_self)
    rw [percentDecode_cons hc, ih fun hcs => h (List.mem_cons_of_mem c hcs)]
    rfl

/-- The safe octets are ASCII, and the escape is not among them. -/
def Ascii (safe : UInt8 → Bool) : Prop := ∀ b, safe b = true → b.toNat < 0x80 ∧ b.toNat ≠ '%'.toNat

variable {safe : UInt8 → Bool}

theorem toNat_ofNat_ascii {n : ℕ} (h : n < 0x80) : (Char.ofNat n).toNat = n := by
  have hvalid : n.isValidChar := Or.inl (by omega)
  rw [Char.ofNat, dif_pos hvalid]
  rfl

/-- **Octets are read back from their characters.** -/
theorem percentDecode_percentEncode (hsafe : Ascii safe) (bs : List UInt8) :
    percentDecode (percentEncode safe bs) = bs := by
  induction bs with
  | nil => rfl
  | cons b bs ih =>
    rw [percentEncode, List.flatMap_cons, ← percentEncode]
    by_cases hb : safe b = true
    · obtain ⟨hascii, hne⟩ := hsafe b hb
      have hnat := toNat_ofNat_ascii hascii
      have hchar : Char.ofNat b.toNat ≠ '%' := by
        intro h
        rw [← hnat, h] at hne
        exact hne rfl
      rw [encodeOctet, if_pos hb, List.singleton_append, percentDecode_cons hchar, ih, hnat,
        UInt8.ofNat_toNat]
    · rw [encodeOctet, if_neg hb]
      simp only [List.cons_append, List.nil_append]
      rw [percentDecode_escape, ih, Nat.div_add_mod, UInt8.ofNat_toNat]

/-- A character of the encoding is a safe one, or belongs to an escape. -/
theorem mem_percentEncode {bs : List UInt8} {c : Char} (h : c ∈ percentEncode safe bs) :
    (∃ b, safe b = true ∧ c = Char.ofNat b.toNat) ∨ c = '%' ∨ ∃ n, c = hex n := by
  obtain ⟨b, -, hc⟩ := List.mem_flatMap.mp h
  rw [encodeOctet] at hc
  split_ifs at hc with hb
  · exact Or.inl ⟨b, hb, List.mem_singleton.mp hc⟩
  · simp only [List.mem_cons, List.not_mem_nil, or_false] at hc
    rcases hc with rfl | rfl | rfl
    · exact Or.inr (Or.inl rfl)
    · exact Or.inr (Or.inr ⟨_, rfl⟩)
    · exact Or.inr (Or.inr ⟨_, rfl⟩)

theorem ascii_of_mem_percentEncode (hsafe : Ascii safe) {bs : List UInt8} {c : Char}
    (h : c ∈ percentEncode safe bs) : c.toNat < 0x80 := by
  have hhex : ∀ n, (hex n).toNat < 0x80 := by decide
  rcases mem_percentEncode h with ⟨b, hb, rfl⟩ | rfl | ⟨n, rfl⟩
  · have hascii := (hsafe b hb).1
    rwa [toNat_ofNat_ascii hascii]
  · decide
  · exact hhex n

theorem percentEncode_eq_nil {bs : List UInt8} : percentEncode safe bs = [] ↔ bs = [] := by
  constructor
  · intro h
    cases bs with
    | nil => rfl
    | cons b bs =>
      rw [percentEncode, List.flatMap_cons, encodeOctet] at h
      split_ifs at h <;> cases h
  · rintro rfl
    rfl

/-! ## UTF-8 with replacement -/

/-- The octets that may follow a leading one, place by place, as closed ranges. -/
def continuations (lead : UInt8) : List (UInt8 × UInt8) :=
  if 0xC2 ≤ lead ∧ lead ≤ 0xDF then [(0x80, 0xBF)]
  else if lead = 0xE0 then [(0xA0, 0xBF), (0x80, 0xBF)]
  else if lead = 0xED then [(0x80, 0x9F), (0x80, 0xBF)]
  else if 0xE1 ≤ lead ∧ lead ≤ 0xEF then [(0x80, 0xBF), (0x80, 0xBF)]
  else if lead = 0xF0 then [(0x90, 0xBF), (0x80, 0xBF), (0x80, 0xBF)]
  else if 0xF1 ≤ lead ∧ lead ≤ 0xF3 then [(0x80, 0xBF), (0x80, 0xBF), (0x80, 0xBF)]
  else if lead = 0xF4 then [(0x80, 0x8F), (0x80, 0xBF), (0x80, 0xBF)]
  else []

/-- How many of the octets stand where they may. -/
def following : List (UInt8 × UInt8) → List UInt8 → ℕ
  | (low, high) :: ranges, b :: bs => if low ≤ b ∧ b ≤ high then following ranges bs + 1 else 0
  | _, _ => 0

/-- The characters of a sequence of octets, of which the first `skip` are read already. -/
def decodeFrom : ℕ → List UInt8 → List Char
  | _, [] => []
  | skip + 1, _ :: bs => decodeFrom skip bs
  | 0, b :: bs =>
    match (b :: bs).toByteArray.utf8DecodeChar? 0 with
    | some c => c :: decodeFrom (c.utf8Size - 1) bs
    | none => '\ufffd' :: decodeFrom (following (continuations b) bs) bs

/-- The characters of a sequence of octets. -/
def decodeReplace (bs : List UInt8) : List Char := decodeFrom 0 bs

theorem decodeFrom_append (xs ys : List UInt8) : decodeFrom xs.length (xs ++ ys) = decodeReplace ys := by
  induction xs with
  | nil => rfl
  | cons x xs ih => exact ih

theorem decodeReplace_char (c : Char) (bs : List UInt8) :
    decodeReplace (String.utf8EncodeChar c ++ bs) = c :: decodeReplace bs := by
  have hchar : (String.utf8EncodeChar c ++ bs).toByteArray.utf8DecodeChar? 0 = some c := by
    rw [List.toByteArray_append]
    exact ByteArray.utf8DecodeChar?_utf8EncodeChar_append
  cases hlead : String.utf8EncodeChar c with
  | nil => exact absurd hlead String.utf8EncodeChar_ne_nil
  | cons b rest =>
    rw [hlead, List.cons_append] at hchar
    have hlength : rest.length = c.utf8Size - 1 := by
      rw [← String.length_utf8EncodeChar, hlead]
      rfl
    rw [List.cons_append, decodeReplace, decodeFrom, hchar]
    simp only [← hlength, decodeFrom_append]

/-- **What UTF-8 writes is read back.** -/
theorem decodeReplace_utf8 (cs : List Char) :
    decodeReplace (cs.flatMap String.utf8EncodeChar) = cs := by
  induction cs with
  | nil => rfl
  | cons c cs ih => rw [List.flatMap_cons, decodeReplace_char, ih]

/-- An ASCII character is its own octet. -/
theorem flatMap_utf8_ascii {cs : List Char} (h : ∀ c ∈ cs, c.toNat < 0x80) :
    cs.flatMap String.utf8EncodeChar = cs.map fun c => .ofNat c.toNat := by
  induction cs with
  | nil => rfl
  | cons c cs ih =>
    have hsize : c.utf8Size = 1 :=
      Char.utf8Size_eq_one_iff.mpr (Nat.le_of_lt_succ (h c List.mem_cons_self))
    have hc : String.utf8EncodeChar c = [.ofNat c.toNat] := String.utf8EncodeChar_eq_singleton hsize
    rw [List.flatMap_cons, ih fun d hd => h d (List.mem_cons_of_mem c hd), hc]
    rfl

end Base
