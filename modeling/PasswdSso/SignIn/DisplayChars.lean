import PasswdSso.SignIn.TenantClaim

/-!
# Escaping for display

`escapeUnsafeDisplayChars` of `src/lib/security/unsafe-display-chars.ts`, on the UTF-16 code units of any string. Every
unit is rendered for itself, as itself or as eight units that begin with `<`, which is not rendered as itself.
-/

namespace PasswdSso.SignIn.DisplayChars

open List

/-- The code units of an ASCII text. -/
def units (text : String) : List UInt16 := text.toList.map fun c ↦ UInt16.ofNat c.toNat

/-- `UNSAFE_DISPLAY_CHARS_RE`, at one code unit. -/
def unsafeUnit (unit : UInt16) : Bool :=
  unsafeDisplayCharRanges.any fun range ↦ range.1 ≤ unit.toNat && unit.toNat ≤ range.2

def escapeUnit (unit : UInt16) : List UInt16 := units ("<" ++ codePointName unit.toNat ++ ">")

/-- `String.prototype.replace` of every match of a one-unit pattern. -/
def replaceUnits (pattern : UInt16 → Bool) (replacement : UInt16 → List UInt16) (value : List UInt16) : List UInt16 :=
  value.flatMap fun unit ↦ if pattern unit then replacement unit else [unit]

def escapeUnsafeDisplayChars (value : List UInt16) : List UInt16 :=
  replaceUnits unsafeUnit escapeUnit (replaceUnits (· = 0x3C) (fun _ ↦ units "<U+003C>") value)

def escapedUnits : List UInt16 :=
  0x3C :: unsafeDisplayCharRanges.flatMap fun range ↦ (range' range.1 (range.2 + 1 - range.1)).map UInt16.ofNat

def render (unit : UInt16) : List UInt16 := if unit ∈ escapedUnits then escapeUnit unit else [unit]

theorem mem_escapedUnits {unit : UInt16} : unit ∈ escapedUnits ↔ unit = 0x3C ∨ unsafeUnit unit = true := by
  simp only [escapedUnits, unsafeUnit, mem_cons, mem_flatMap, mem_map, mem_range'_1, any_eq_true, Bool.and_eq_true,
    decide_eq_true_eq]
  refine or_congr_right (exists_congr fun range ↦ and_congr_right fun hrange ↦ ⟨?_, fun h ↦ ?_⟩)
  · rintro ⟨n, h, rfl⟩
    have : ∀ range ∈ unsafeDisplayCharRanges, range.2 < 65536 := by decide
    have := this range hrange
    rw [UInt16.toNat_ofNat', Nat.mod_eq_of_lt (by omega)]
    omega
  · exact ⟨unit.toNat, by omega, UInt16.ofNat_toNat⟩

theorem escapeUnsafeDisplayChars_eq (value : List UInt16) :
    escapeUnsafeDisplayChars value = value.flatMap render := by
  rw [escapeUnsafeDisplayChars, replaceUnits, replaceUnits, flatMap_assoc]
  congr 1
  funext unit
  by_cases hlt : unit = 0x3C
  · subst hlt
    decide +kernel
  · simp [hlt, render, mem_escapedUnits]

theorem escapeUnit_shape : ∀ unit ∈ escapedUnits, (escapeUnit unit).length = 8 ∧
    (escapeUnit unit).head? = some 0x3C ∧ (escapeUnit unit).any unsafeUnit = false :=
  forall_iff_forall_mem.mp (by decide +kernel)

theorem escapeUnit_nodup : (escapedUnits.map escapeUnit).Nodup := by decide +kernel

theorem head?_render_append (unit : UInt16) (rest : List UInt16) :
    (render unit ++ rest).head? = some (if unit ∈ escapedUnits then 0x3C else unit) := by
  unfold render
  split_ifs with hunit
  · rw [head?_append, (escapeUnit_shape unit hunit).2.1]
    rfl
  · rfl

theorem render_append_inj {unit unit' : UInt16} {rest rest' : List UInt16}
    (h : render unit ++ rest = render unit' ++ rest') : unit = unit' ∧ rest = rest' := by
  have hhead := congrArg head? h
  rw [head?_render_append, head?_render_append, Option.some_inj] at hhead
  unfold render at h
  split_ifs at h hhead with hunit hunit' hunit'
  · obtain ⟨hescape, hrest⟩ := append_inj h ((escapeUnit_shape _ hunit).1.trans (escapeUnit_shape _ hunit').1.symm)
    exact ⟨inj_on_of_nodup_map escapeUnit_nodup hunit hunit' hescape, hrest⟩
  · exact absurd (hhead ▸ mem_cons_self) hunit'
  · exact absurd (hhead ▸ mem_cons_self) hunit
  · exact cons.inj h

theorem escapeUnsafeDisplayChars_safe_injective :
    (∀ value, ∀ unit ∈ escapeUnsafeDisplayChars value, unsafeUnit unit = false) ∧
      Function.Injective escapeUnsafeDisplayChars := by
  constructor
  · intro value unit hunit
    rw [escapeUnsafeDisplayChars_eq, mem_flatMap] at hunit
    obtain ⟨source, -, hrender⟩ := hunit
    unfold render at hrender
    split_ifs at hrender with hescaped
    · exact eq_false_of_ne_true (any_eq_false.mp (escapeUnit_shape source hescaped).2.2 unit hrender)
    · rw [mem_escapedUnits, not_or, Bool.not_eq_true] at hescaped
      exact mem_singleton.mp hrender ▸ hescaped.2
  · intro value value' h
    rw [escapeUnsafeDisplayChars_eq, escapeUnsafeDisplayChars_eq] at h
    induction value generalizing value' with
    | nil =>
      cases value' with
      | nil => rfl
      | cons unit' value' => exact nomatch (congrArg head? h).trans (head?_render_append unit' _)
    | cons unit value ih =>
      cases value' with
      | nil => exact nomatch (congrArg head? h).symm.trans (head?_render_append unit _)
      | cons unit' value' =>
        obtain ⟨rfl, hrest⟩ := render_append_inj h
        rw [ih hrest]

end PasswdSso.SignIn.DisplayChars
