import Mathlib.Data.List.Basic

/-!
# Base64

The standard encoding with padding: three bytes become four characters of six bits each, and
one or two bytes at the end become two or three characters and padding. Decoding skips line
ends and refuses everything that is not a sequence of whole groups, padded at most in the last
one; spare bits before the padding are not looked at.

Encoding is inverted by decoding (`decode_encode`), and the length of what it gives depends on
the length of the input only (`length_encodeChars`).
-/

namespace Base64

/-! ### Six bits -/

def alphabet : List Char :=
  "ABCDEFGHIJKLMNOPQRSTUVWXYZabcdefghijklmnopqrstuvwxyz0123456789+/".toList

def encodeSextet (n : ℕ) : Char := alphabet.getD n 'A'

def decodeSextet (ch : Char) : Option ℕ := alphabet.findIdx? (· == ch)

private theorem sextets : ∀ n : Fin 64,
    decodeSextet (encodeSextet n) = some n.val ∧ encodeSextet n ≠ '=' ∧
      encodeSextet n ≠ '\n' ∧ encodeSextet n ≠ '\r' := by
  decide

theorem decodeSextet_encodeSextet {n : ℕ} (h : n < 64) :
    decodeSextet (encodeSextet n) = some n := (sextets ⟨n, h⟩).1

theorem encodeSextet_ne {n : ℕ} (h : n < 64) :
    encodeSextet n ≠ '=' ∧ encodeSextet n ≠ '\n' ∧ encodeSextet n ≠ '\r' := (sextets ⟨n, h⟩).2

/-! ### Groups -/

def encodeChars : List UInt8 → List Char
  | [] => []
  | [a] => [encodeSextet (a.toNat / 4), encodeSextet (a.toNat % 4 * 16), '=', '=']
  | [a, b] => [encodeSextet (a.toNat / 4), encodeSextet (a.toNat % 4 * 16 + b.toNat / 16),
      encodeSextet (b.toNat % 16 * 4), '=']
  | a :: b :: c :: rest =>
    encodeSextet (a.toNat / 4) :: encodeSextet (a.toNat % 4 * 16 + b.toNat / 16) ::
      encodeSextet (b.toNat % 16 * 4 + c.toNat / 64) :: encodeSextet (c.toNat % 64) ::
      encodeChars rest

def decodeChars : List Char → Option (List UInt8)
  | [] => some []
  | w :: x :: y :: z :: rest =>
    if z = '=' then
      if rest ≠ [] then none
      else if y = '=' then do
        let w ← decodeSextet w
        let x ← decodeSextet x
        pure [UInt8.ofNat (w * 4 + x / 16)]
      else do
        let w ← decodeSextet w
        let x ← decodeSextet x
        let y ← decodeSextet y
        pure [UInt8.ofNat (w * 4 + x / 16), UInt8.ofNat (x % 16 * 16 + y / 4)]
    else do
      let w ← decodeSextet w
      let x ← decodeSextet x
      let y ← decodeSextet y
      let z ← decodeSextet z
      let bytes ← decodeChars rest
      pure (UInt8.ofNat (w * 4 + x / 16) :: UInt8.ofNat (x % 16 * 16 + y / 4) ::
        UInt8.ofNat (y % 4 * 64 + z) :: bytes)
  | _ => none

private theorem ofNat_eq {a : UInt8} {n : ℕ} (h : n = a.toNat) : UInt8.ofNat n = a := by
  rw [h, UInt8.ofNat_toNat]

theorem decodeChars_encodeChars (bytes : List UInt8) :
    decodeChars (encodeChars bytes) = some bytes := by
  induction bytes using encodeChars.induct with
  | case1 => rfl
  | case2 a =>
    have ha := a.toNat_lt
    simp only [encodeChars, decodeChars, if_true, ne_eq, not_true_eq_false, if_false]
    rw [decodeSextet_encodeSextet (by omega), decodeSextet_encodeSextet (by omega)]
    exact congrArg some (by rw [ofNat_eq (a := a) (by omega)])
  | case3 a b =>
    have ha := a.toNat_lt
    have hb := b.toNat_lt
    simp only [encodeChars, decodeChars, if_true, ne_eq, not_true_eq_false, if_false]
    rw [if_neg (encodeSextet_ne (by omega)).1, decodeSextet_encodeSextet (by omega),
      decodeSextet_encodeSextet (by omega), decodeSextet_encodeSextet (by omega)]
    exact congrArg some (by rw [ofNat_eq (a := a) (by omega), ofNat_eq (a := b) (by omega)])
  | case4 a b c rest ih =>
    have ha := a.toNat_lt
    have hb := b.toNat_lt
    have hc := c.toNat_lt
    simp only [encodeChars, decodeChars]
    rw [if_neg (encodeSextet_ne (by omega)).1, decodeSextet_encodeSextet (by omega),
      decodeSextet_encodeSextet (by omega), decodeSextet_encodeSextet (by omega),
      decodeSextet_encodeSextet (by omega), ih]
    exact congrArg some (by
      rw [ofNat_eq (a := a) (by omega), ofNat_eq (a := b) (by omega), ofNat_eq (a := c) (by omega)])

theorem length_encodeChars (bytes : List UInt8) :
    (encodeChars bytes).length = (bytes.length + 2) / 3 * 4 := by
  induction bytes using encodeChars.induct with
  | case1 | case2 | case3 => simp [encodeChars]
  | case4 a b c rest ih =>
    simp only [encodeChars, List.length_cons, ih]
    omega

/-! ### Texts -/

def encode (bytes : List UInt8) : String := String.ofList (encodeChars bytes)

def decode (s : String) : Option (List UInt8) :=
  decodeChars (s.toList.filter fun ch => ch != '\n' && ch != '\r')

private theorem no_lineEnd (bytes : List UInt8) :
    ∀ ch ∈ encodeChars bytes, ch ≠ '\n' ∧ ch ≠ '\r' := by
  have hpad : '=' ≠ '\n' ∧ '=' ≠ '\r' := by decide
  induction bytes using encodeChars.induct with
  | case1 => simp [encodeChars]
  | case2 a =>
    have ha := a.toNat_lt
    simp only [encodeChars, List.forall_mem_cons]
    exact ⟨(encodeSextet_ne (by omega)).2, (encodeSextet_ne (by omega)).2, hpad, hpad, by simp⟩
  | case3 a b =>
    have ha := a.toNat_lt
    have hb := b.toNat_lt
    simp only [encodeChars, List.forall_mem_cons]
    exact ⟨(encodeSextet_ne (by omega)).2, (encodeSextet_ne (by omega)).2,
      (encodeSextet_ne (by omega)).2, hpad, by simp⟩
  | case4 a b c rest ih =>
    have ha := a.toNat_lt
    have hb := b.toNat_lt
    have hc := c.toNat_lt
    simp only [encodeChars, List.forall_mem_cons]
    exact ⟨(encodeSextet_ne (by omega)).2, (encodeSextet_ne (by omega)).2,
      (encodeSextet_ne (by omega)).2, (encodeSextet_ne (by omega)).2, ih⟩

/-- **Decoding inverts encoding.** -/
theorem decode_encode (bytes : List UInt8) : decode (encode bytes) = some bytes := by
  have hfilter : (encodeChars bytes).filter (fun ch => ch != '\n' && ch != '\r') =
      encodeChars bytes := by
    refine List.filter_eq_self.mpr fun ch hch => ?_
    simp [no_lineEnd bytes ch hch]
  rw [decode, encode, String.toList_ofList, hfilter, decodeChars_encodeChars]

end Base64
