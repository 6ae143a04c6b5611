-- Hexadecimal digits. A row of digits tells the low digits of its number, so the digits of a digest
-- tell the digest.
import CauseLists.Digest

namespace CauseLists

namespace Text

theorem hexDigit_inj : ∀ n < 16, ∀ m < 16, hexDigit n = hexDigit m → n = m := by decide

theorem length_hexDigits (width n : Nat) : (hexDigits width n).length = width := by
  induction width generalizing n with
  | zero => rfl
  | succ width ih => simp [hexDigits, ih]

theorem hexDigit_ne_slash : ∀ n < 16, hexDigit n ≠ '/' := by decide

theorem slash_notMem_hexDigits (width n : Nat) : '/' ∉ hexDigits width n := by
  induction width generalizing n with
  | zero => exact List.not_mem_nil
  | succ width ih =>
    rw [hexDigits, List.mem_append, List.mem_singleton, not_or]
    exact ⟨ih _, (hexDigit_ne_slash _ (Nat.mod_lt n (by decide))).symm⟩

theorem hexDigits_inj {width n m : Nat} (h : hexDigits width n = hexDigits width m) :
    n % Nat.pow 16 width = m % Nat.pow 16 width := by
  induction width generalizing n m with
  | zero => exact (Nat.mod_one n).trans (Nat.mod_one m).symm
  | succ width ih =>
    rw [hexDigits, hexDigits] at h
    obtain ⟨hhigh, hlow⟩ := List.append_inj' h rfl
    have hdigit := hexDigit_inj _ (Nat.mod_lt n (by decide)) _ (Nat.mod_lt m (by decide))
      (List.singleton_inj.mp hlow)
    have hstep : Nat.pow 16 (width + 1) = 16 * Nat.pow 16 width := Nat.pow_succ'
    rw [hstep, Nat.mod_mul, Nat.mod_mul, hdigit, ih hhigh]

/-- Two digits tell a byte. -/
theorem hexDigits_byte_inj {b c : UInt8} (h : hexDigits 2 b.toNat = hexDigits 2 c.toNat) :
    b = c := by
  have hsmall : ∀ d : UInt8, d.toNat < Nat.pow 16 2 := fun d => d.toNat_lt
  have hmod := hexDigits_inj h
  rw [Nat.mod_eq_of_lt (hsmall b), Nat.mod_eq_of_lt (hsmall c)] at hmod
  exact UInt8.toNat_inj.mp hmod

/-- The digits of bytes tell the bytes. -/
theorem hexDigits_bytes_inj {bs cs : Bytes}
    (h : bs.flatMap (fun b => hexDigits 2 b.toNat) = cs.flatMap (fun b => hexDigits 2 b.toNat)) :
    bs = cs := by
  induction bs generalizing cs with
  | nil =>
    cases cs with
    | nil => rfl
    | cons c cs =>
      have hlen := congrArg List.length h
      simp [length_hexDigits] at hlen
      omega
  | cons b bs ih =>
    cases cs with
    | nil =>
      have hlen := congrArg List.length h
      simp [length_hexDigits] at hlen
    | cons c cs =>
      rw [List.flatMap_cons, List.flatMap_cons] at h
      obtain ⟨hfirst, hrest⟩ :=
        List.append_inj h (by rw [length_hexDigits, length_hexDigits])
      rw [hexDigits_byte_inj hfirst, ih hrest]

end Text

theorem Digest.hex_injective : Function.Injective Digest.hex := by
  rintro ⟨bs⟩ ⟨cs⟩ h
  exact congrArg Digest.mk (Text.hexDigits_bytes_inj (String.ofList_injective h))

/-- Digits in hexadecimal are no path. -/
theorem Digest.slash_notMem_hex (d : Digest) : '/' ∉ d.hex.toList := by
  rw [Digest.hex, String.toList_ofList, List.mem_flatMap]
  rintro ⟨b, -, hb⟩
  exact Text.slash_notMem_hexDigits 2 b.toNat hb

end CauseLists
