-- Characters as bytes. Characters are encoded one after the other, and a digit of ASCII is one
-- byte, from which its value is read as it is from the character. What was encoded is read back.
import CauseLists.Proofs.Text.Numeral
import CauseLists.Text.Utf8

namespace CauseLists.Text

/-- The bytes of some characters. -/
def encodeChars (cs : List Char) : Bytes := cs.flatMap encodeChar

theorem encode_ofList (cs : List Char) : encode (String.ofList cs) = encodeChars cs := by
  rw [encode, String.toList_ofList, encodeChars]

theorem encodeChars_nil : encodeChars [] = [] := rfl

theorem encodeChars_cons (c : Char) (cs : List Char) :
    encodeChars (c :: cs) = encodeChar c ++ encodeChars cs :=
  List.flatMap_cons

theorem encodeChars_append (cs ds : List Char) :
    encodeChars (cs ++ ds) = encodeChars cs ++ encodeChars ds :=
  List.flatMap_append

/-- A character of ASCII is one byte. -/
theorem encodeChars_ascii {c : Char} (h : c.toNat < 0x80) (cs : List Char) :
    encodeChars (c :: cs) = UInt8.ofNat c.toNat :: encodeChars cs := by
  rw [encodeChars_cons, encodeChar]
  simp only [if_pos h, List.singleton_append]

/-- Every character takes a byte at least. -/
theorem length_le_length_encodeChars (cs : List Char) : cs.length ≤ (encodeChars cs).length := by
  induction cs with
  | nil => exact Nat.le_refl 0
  | cons c cs ih =>
    have hchar : encodeChar c ≠ [] := by
      unfold encodeChar
      dsimp only
      split
      · simp
      · split
        · simp
        · split <;> simp
    have hsome := List.length_pos_iff.mpr hchar
    rw [encodeChars_cons, List.length_append, List.length_cons]
    omega

/-- The byte of a digit. -/
theorem encodeChar_of_digit {c : Char} (h : '0' ≤ c ∧ c ≤ '9') :
    ∃ b, encodeChar c = [b] ∧ b.toNat = '0'.toNat + digitValue c := by
  have hlow : '0'.toNat ≤ c.toNat := h.1
  have hhigh : c.toNat ≤ '9'.toNat := h.2
  have hnine : '9'.toNat = 57 := rfl
  refine ⟨UInt8.ofNat c.toNat, ?_, ?_⟩
  · unfold encodeChar
    dsimp only
    rw [if_pos (by omega)]
  · rw [UInt8.toNat_ofNat', Nat.mod_eq_of_lt (by omega)]
    unfold digitValue
    omega

/-! ## Reading back -/

/-- A byte that continues a character has six bits of a number. -/
def Continues (n : Nat) (b : UInt8) : Prop := b.toNat = 0x80 + n % 64

theorem continues_ofNat (n : Nat) : Continues n (UInt8.ofNat (0x80 + n % 64)) := by
  rw [Continues, UInt8.toNat_ofNat']
  omega

theorem Continues.isContinuation {n : Nat} {b : UInt8} (h : Continues n b) :
    isContinuation b = true := by
  rw [Continues] at h
  simp only [Text.isContinuation, UInt8.le_iff_toNat_le, Bool.and_eq_true, decide_eq_true_eq]
  rw [h]
  exact ⟨Nat.le_add_right _ _, show _ ≤ 0xbf by omega⟩

theorem Continues.sixBits {n : Nat} {b : UInt8} (h : Continues n b) : sixBits b = n % 64 := by
  unfold Text.sixBits
  rw [Continues] at h
  omega

section

variable {n : Nat} {a b c d : UInt8} (rest : Bytes)

theorem firstChar_one (h : n < 0x80) (ha : a.toNat = n) :
    firstChar? (a :: rest) = some (Char.ofNat n, rest) := by
  have hone : a < 0x80 := UInt8.lt_iff_toNat_lt.mpr (ha ▸ h)
  simp [firstChar?, hone, ha]

theorem firstChar_two (hlow : 0x80 ≤ n) (hhigh : n < 0x800) (ha : a.toNat = 0xc0 + n / 64)
    (hb : Continues n b) : firstChar? (a :: b :: rest) = some (Char.ofNat n, rest) := by
  have hmany : ¬ a < 0x80 := by
    simp [UInt8.lt_iff_toNat_lt]
    omega
  have htwo : 0xc2 ≤ a ∧ a ≤ 0xdf := by
    simp [UInt8.le_iff_toNat_le]
    omega
  have hnumber : (a.toNat - 0xc0) * 64 + n % 64 = n := by omega
  simp [firstChar?, hmany, htwo, hb.isContinuation, hb.sixBits, hnumber]

theorem firstChar_three (hlow : 0x800 ≤ n) (hhigh : n < 0x10000)
    (hvalid : n < 0xd800 ∨ 0xdfff < n) (ha : a.toNat = 0xe0 + n / 4096) (hb : Continues (n / 64) b)
    (hc : Continues n c) : firstChar? (a :: b :: c :: rest) = some (Char.ofNat n, rest) := by
  have hmany : ¬ a < 0x80 := by
    simp [UInt8.lt_iff_toNat_lt]
    omega
  have htwo : ¬ a ≤ 0xdf := by
    simp [UInt8.le_iff_toNat_le]
    omega
  have hthree : 0xe0 ≤ a ∧ a ≤ 0xef := by
    simp [UInt8.le_iff_toNat_le]
    omega
  have hnumber : (a.toNat - 0xe0) * 4096 + n / 64 % 64 * 64 + n % 64 = n := by omega
  have hnone : ¬ (0xd800 ≤ n ∧ n ≤ 0xdfff) := by omega
  simp [firstChar?, hmany, htwo, hthree, hb.isContinuation, hb.sixBits, hc.isContinuation,
    hc.sixBits, hnumber, hlow]
  omega

theorem firstChar_four (hlow : 0x10000 ≤ n) (hhigh : n < 0x110000)
    (ha : a.toNat = 0xf0 + n / 262144) (hb : Continues (n / 4096) b) (hc : Continues (n / 64) c)
    (hd : Continues n d) : firstChar? (a :: b :: c :: d :: rest) = some (Char.ofNat n, rest) := by
  have hmany : ¬ a < 0x80 := by
    simp [UInt8.lt_iff_toNat_lt]
    omega
  have htwo : ¬ a ≤ 0xdf := by
    simp [UInt8.le_iff_toNat_le]
    omega
  have hthree : ¬ a ≤ 0xef := by
    simp [UInt8.le_iff_toNat_le]
    omega
  have hfour : 0xf0 ≤ a ∧ a ≤ 0xf4 := by
    simp [UInt8.le_iff_toNat_le]
    omega
  have hnumber : (a.toNat - 0xf0) * 262144 + n / 4096 % 64 * 4096 + n / 64 % 64 * 64 + n % 64 =
      n := by omega
  simp [firstChar?, hmany, htwo, hthree, hfour, hb.isContinuation, hb.sixBits, hc.isContinuation,
    hc.sixBits, hd.isContinuation, hd.sixBits, hnumber, hlow]
  omega

end

/-- The first character that is read is the first that was written. -/
theorem firstChar_encodeChar (c : Char) (rest : Bytes) :
    firstChar? (encodeChar c ++ rest) = some (c, rest) := by
  have hvalid : c.toNat < 0xd800 ∨ 0xdfff < c.toNat ∧ c.toNat < 0x110000 := c.valid
  have hread : Char.ofNat c.toNat = c := Char.ofNat_toNat c
  rw [encodeChar]
  generalize c.toNat = n at hvalid hread
  subst hread
  have hbyte : ∀ m < 256, (UInt8.ofNat m).toNat = m := by
    intro m hm
    rw [UInt8.toNat_ofNat', Nat.mod_eq_of_lt hm]
  split
  case isTrue hone => exact firstChar_one rest hone (hbyte n (by omega))
  case isFalse hone =>
    split
    case isTrue htwo =>
      exact firstChar_two rest (by omega) htwo (hbyte _ (by omega)) (continues_ofNat n)
    case isFalse htwo =>
      split
      case isTrue hthree =>
        exact firstChar_three rest (by omega) hthree (by omega) (hbyte _ (by omega))
          (continues_ofNat (n / 64)) (continues_ofNat n)
      case isFalse hthree =>
        exact firstChar_four rest (by omega) (by omega) (hbyte _ (by omega))
          (continues_ofNat (n / 4096)) (continues_ofNat (n / 64)) (continues_ofNat n)

theorem decodeChars_encodeChars {rounds : Nat} (cs : List Char) (hrounds : cs.length ≤ rounds)
    (done : List Char) :
    decodeChars rounds (encodeChars cs) done = some (done.reverse ++ cs) := by
  induction cs generalizing rounds done with
  | nil => simp [encodeChars_nil, decodeChars]
  | cons c cs ih =>
    cases rounds with
    | zero => simp at hrounds
    | succ rounds =>
      have hlonger := length_le_length_encodeChars (c :: cs)
      have hread := firstChar_encodeChar c (encodeChars cs)
      rw [← encodeChars_cons] at hread
      cases hbytes : encodeChars (c :: cs) with
      | nil => simp [hbytes] at hlonger
      | cons b bytes =>
        rw [hbytes] at hread
        simp only [decodeChars, hread]
        rw [ih (Nat.le_of_succ_le_succ hrounds), List.reverse_cons, List.append_assoc,
          List.singleton_append]

/-- A text is read back from its bytes. -/
theorem decode_encode (s : String) : decode? (encode s) = some s := by
  have hchars : decodeChars (encodeChars s.toList).length (encodeChars s.toList) [] =
      some s.toList :=
    decodeChars_encodeChars s.toList (length_le_length_encodeChars s.toList) []
  rw [decode?, encode, ← encodeChars, hchars, Option.map_some, String.ofList_toList]

end CauseLists.Text
