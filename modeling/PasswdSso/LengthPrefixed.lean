import Mathlib.Data.List.Basic

/-!
# Length-prefixed byte strings

A byte string is framed by its length as two bytes, the higher one first, and a list of byte strings is written frame
by frame. Byte strings that are short enough for the prefix can be read back.
-/

namespace PasswdSso.LengthPrefixed

def uint16 (n : Nat) : List UInt8 := [UInt8.ofNat (n / 256), UInt8.ofNat n]

def frame (field : List UInt8) : List UInt8 := uint16 field.length ++ field

def frames (fields : List (List UInt8)) : List UInt8 := fields.flatMap frame

def maxLength : Nat := 0xffff

theorem uint16_injective {first second : Nat} (hfirst : first ≤ maxLength) (hsecond : second ≤ maxLength)
    (h : uint16 first = uint16 second) : first = second := by
  obtain ⟨hhigh, hrest⟩ := List.cons.inj h
  have hlow := (List.cons.inj hrest).1
  have hhigh' := congrArg UInt8.toNat hhigh
  have hlow' := congrArg UInt8.toNat hlow
  simp only [UInt8.toNat_ofNat', maxLength] at hhigh' hlow' hfirst hsecond
  omega

theorem frame_append_inj {first second rest rest' : List UInt8} (hfirst : first.length ≤ maxLength)
    (hsecond : second.length ≤ maxLength) (h : frame first ++ rest = frame second ++ rest') :
    first = second ∧ rest = rest' := by
  rw [frame, frame, List.append_assoc, List.append_assoc] at h
  obtain ⟨hlength, hbytes⟩ := List.append_inj h rfl
  exact List.append_inj hbytes (uint16_injective hfirst hsecond hlength)

theorem frames_injective {first second : List (List UInt8)} (hfirst : ∀ field ∈ first, field.length ≤ maxLength)
    (hsecond : ∀ field ∈ second, field.length ≤ maxLength) (h : frames first = frames second) : first = second := by
  induction first generalizing second with
  | nil =>
    cases second with
    | nil => rfl
    | cons field rest => exact nomatch h
  | cons field rest ih =>
    cases second with
    | nil => exact nomatch h
    | cons field' rest' =>
      rw [List.forall_mem_cons] at hfirst hsecond
      obtain ⟨rfl, hrest⟩ := frame_append_inj hfirst.1 hsecond.1 h
      rw [ih hfirst.2 hsecond.2 hrest]

end PasswdSso.LengthPrefixed
