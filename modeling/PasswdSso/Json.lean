import Mathlib.Data.List.Sort
import Mathlib.Data.Fintype.Basic

/-!
# JSON values and their texts

JSON values, their compact text in the notation of `JSON.stringify`, and its unique readability: a
value can be read off the front of any text in which it is followed by a delimiter (`print_inj`). An
object keeps its fields in some order; `Json.normal` sorts them, at every depth, by the UTF-16 code
units of their keys, so that two values are the same up to the order of fields when they have the same
normal form.
-/

namespace PasswdSso

open List

def hexDigit (n : Nat) : Char :=
  if n < 10 then Char.ofNat (0x30 + n) else Char.ofNat (0x57 + n)

def hexText (bytes : List UInt8) : List Char :=
  bytes.flatMap fun byte ↦ [hexDigit (byte.toNat / 16), hexDigit (byte.toNat % 16)]

theorem hexDigit_inj : ∀ m < 16, ∀ n < 16, hexDigit m = hexDigit n → m = n := by
  decide

theorem hexDigit_plain : ∀ n < 16, 0x30 ≤ (hexDigit n).toNat ∧ (hexDigit n).toNat ≤ 0x66 ∧
    (hexDigit n).toNat ≠ 0x5C := by
  decide

theorem hexText_plain {bytes : List UInt8} {c : Char} (hc : c ∈ hexText bytes) :
    0x30 ≤ c.toNat ∧ c.toNat ≤ 0x66 ∧ c.toNat ≠ 0x5C := by
  obtain ⟨byte, -, hdigit⟩ := mem_flatMap.mp hc
  have hbyte : byte.toNat < 256 := byte.toNat_lt
  simp only [mem_cons, not_mem_nil, or_false] at hdigit
  rcases hdigit with rfl | rfl
  · exact hexDigit_plain _ (by omega)
  · exact hexDigit_plain _ (by omega)

theorem hexText_injective : Function.Injective hexText := by
  intro first second h
  induction first generalizing second with
  | nil =>
    cases second with
    | nil => rfl
    | cons byte rest => simp [hexText] at h
  | cons byte rest ih =>
    cases second with
    | nil => simp [hexText] at h
    | cons byte' rest' =>
      simp only [hexText, flatMap_cons, cons_append, nil_append, cons.injEq] at h
      obtain ⟨hhigh, hlow, hrest⟩ := h
      have hlt : byte.toNat < 256 := byte.toNat_lt
      have hlt' : byte'.toNat < 256 := byte'.toNat_lt
      have hhigh' := hexDigit_inj _ (by omega) _ (by omega) hhigh
      have hlow' := hexDigit_inj _ (by omega) _ (by omega) hlow
      rw [ih hrest, UInt8.toNat_inj.mp (by omega : byte.toNat = byte'.toNat)]

def utf8 (text : List Char) : List UInt8 := text.flatMap String.utf8EncodeChar

theorem utf8_injective : Function.Injective utf8 := by
  intro first second h
  have hbytes : first.utf8Encode = second.utf8Encode := congrArg toByteArray h
  rw [← String.toByteArray_ofList, ← String.toByteArray_ofList] at hbytes
  exact String.ofList_injective (String.toByteArray_inj.mp hbytes)

@[simp] theorem utf8_append (first second : List Char) : utf8 (first ++ second) = utf8 first ++ utf8 second :=
  flatMap_append

theorem utf8_ascii {text : List Char} (h : ∀ c ∈ text, c.toNat ≤ 127) :
    utf8 text = text.map fun c ↦ UInt8.ofNat c.toNat := by
  induction text with
  | nil => rfl
  | cons c rest ih =>
    obtain ⟨hc, hrest⟩ := forall_mem_cons.mp h
    have hchar : String.utf8EncodeChar c = [UInt8.ofNat c.toNat] := if_pos hc
    rw [utf8, flatMap_cons, hchar]
    exact congrArg (UInt8.ofNat c.toNat :: ·) (ih hrest)

def codeUnits (s : String) : List Nat :=
  s.toList.flatMap fun c ↦
    if c.toNat < 0x10000 then [c.toNat]
    else [0xD800 + (c.toNat - 0x10000) / 0x400, 0xDC00 + (c.toNat - 0x10000) % 0x400]

def codeUnitsLe : List Nat → List Nat → Bool
  | [], _ => true
  | _ :: _, [] => false
  | a :: as, b :: bs => a < b || (a = b && codeUnitsLe as bs)

section Quoting

def escape (c : Char) : List Char :=
  if c.toNat = 0x22 then ['\\', '"']
  else if c.toNat = 0x5C then ['\\', '\\']
  else if c.toNat = 0x08 then ['\\', 'b']
  else if c.toNat = 0x0C then ['\\', 'f']
  else if c.toNat = 0x0A then ['\\', 'n']
  else if c.toNat = 0x0D then ['\\', 'r']
  else if c.toNat = 0x09 then ['\\', 't']
  else if c.toNat < 0x20 then
    ['\\', 'u', '0', '0', hexDigit (c.toNat / 16), hexDigit (c.toNat % 16)]
  else [c]

/-- `JSON.stringify` of a string without lone surrogates. -/
def quote (s : String) : List Char := '"' :: (s.toList.flatMap escape ++ ['"'])

theorem quote_hexText (bytes : List UInt8) :
    quote (String.ofList (hexText bytes)) = '"' :: (hexText bytes ++ ['"']) := by
  have hescape : (hexText bytes).flatMap escape = hexText bytes := by
    have hplain (c : Char) (hc : c ∈ hexText bytes) : escape c = [c] := by
      obtain ⟨hlow, -, hbackslash⟩ := hexText_plain hc
      unfold escape
      split_ifs <;> first | omega | rfl
    rw [List.flatMap_congr hplain, List.flatMap_singleton']
  rw [quote, String.toList_ofList, hescape]

def hexValue (c : Char) : Nat := if c.toNat < 0x57 then c.toNat - 0x30 else c.toNat - 0x57

/-- Read one character of a quoted string: `none` at the closing quote. -/
def unescape : List Char → Option (Nat × List Char)
  | '\\' :: '"' :: rest => some (0x22, rest)
  | '\\' :: '\\' :: rest => some (0x5C, rest)
  | '\\' :: 'b' :: rest => some (0x08, rest)
  | '\\' :: 'f' :: rest => some (0x0C, rest)
  | '\\' :: 'n' :: rest => some (0x0A, rest)
  | '\\' :: 'r' :: rest => some (0x0D, rest)
  | '\\' :: 't' :: rest => some (0x09, rest)
  | '\\' :: 'u' :: _ :: _ :: high :: low :: rest => some (16 * hexValue high + hexValue low, rest)
  | '"' :: _ => none
  | c :: rest => some (c.toNat, rest)
  | [] => none

theorem hexValue_hexDigit : ∀ n < 0x20, 16 * hexValue (hexDigit (n / 16)) + hexValue (hexDigit (n % 16)) = n := by
  decide

variable {c : Char} {x y : List Char}

theorem unescape_plain (rest : List Char) (hquote : c.toNat ≠ 0x22) (hbackslash : c.toNat ≠ 0x5C) :
    unescape (c :: rest) = some (c.toNat, rest) := by
  have hne (d : Char) (h : c.toNat ≠ d.toNat) : c ≠ d := fun heq ↦ h (congrArg Char.toNat heq)
  unfold unescape
  split
  all_goals simp_all

theorem unescape_escape (c : Char) (rest : List Char) : unescape (escape c ++ rest) = some (c.toNat, rest) := by
  unfold escape
  split_ifs with h1 h2 h3 h4 h5 h6 h7 h8
  · rw [h1]; rfl
  · rw [h2]; rfl
  · rw [h3]; rfl
  · rw [h4]; rfl
  · rw [h5]; rfl
  · rw [h6]; rfl
  · rw [h7]; rfl
  · exact congrArg (fun n ↦ some (n, rest)) (hexValue_hexDigit _ h8)
  · exact unescape_plain rest h1 h2

theorem char_eq_of_toNat_eq {d : Char} (h : c.toNat = d.toNat) : c = d :=
  Char.ext (UInt32.toNat_inj.mp h)

theorem escaped_inj {s t : List Char} (h : s.flatMap escape ++ '"' :: x = t.flatMap escape ++ '"' :: y) :
    s = t ∧ x = y := by
  induction s generalizing t with
  | nil =>
    cases t with
    | nil => exact ⟨rfl, (List.cons.inj h).2⟩
    | cons d t =>
      have hread := congrArg unescape h
      rw [List.flatMap_cons, List.append_assoc, unescape_escape] at hread
      exact absurd hread (by simp [unescape])
  | cons c s ih =>
    cases t with
    | nil =>
      have hread := congrArg unescape h
      rw [List.flatMap_cons, List.append_assoc, unescape_escape] at hread
      exact absurd hread (by simp [unescape])
    | cons d t =>
      have hread := congrArg unescape h
      rw [List.flatMap_cons, List.flatMap_cons, List.append_assoc, List.append_assoc,
        unescape_escape, unescape_escape, Option.some.injEq, Prod.mk.injEq] at hread
      obtain ⟨rfl, rfl⟩ := ih hread.2
      exact ⟨by rw [char_eq_of_toNat_eq hread.1], rfl⟩

theorem quote_inj {s t : String} (h : quote s ++ x = quote t ++ y) : s = t ∧ x = y := by
  have hbody : s.toList.flatMap escape ++ '"' :: x = t.toList.flatMap escape ++ '"' :: y := by
    simpa [quote] using h
  exact (escaped_inj hbody).imp_left String.toList_inj.mp

end Quoting

/-- The text of a finite number, which determines the number: `JSON.stringify` writes the shortest
digits that are read back as the same number. -/
structure Numeral where
  text : List Char
  nonempty : text ≠ []
  chars : ∀ c ∈ text, c.isDigit ∨ c ∈ ['+', '-', '.', 'e']
  deriving DecidableEq

def Numeral.ofNat (n : Nat) : Numeral where
  text := Nat.toDigits 10 n
  nonempty := Nat.toDigits_ne_nil
  chars _ hc := .inl (Nat.isDigit_of_mem_toDigits (by decide) (by decide) hc)

mutual

/-- A JSON value whose numbers are finite and whose strings have no lone surrogates. -/
inductive Json
  | null
  | bool (value : Bool)
  | num (value : Numeral)
  | str (value : String)
  | arr (items : Items)
  | obj (fields : Fields)
  deriving DecidableEq

inductive Items
  | nil
  | cons (head : Json) (tail : Items)

inductive Fields
  | nil
  | cons (key : String) (value : Json) (rest : Fields)

end

def Fields.ofList : List (String × Json) → Fields
  | [] => .nil
  | (key, value) :: rest => .cons key value (.ofList rest)

/-- The value of a field; `none` is `undefined`. -/
def Fields.get? : Fields → String → Option Json
  | .nil, _ => none
  | .cons key value rest, name => if key = name then some value else rest.get? name

def Json.object (fields : List (String × Json)) : Json := .obj (.ofList fields)

/-- `Array.prototype.join(",")`. -/
def commaJoin : List (List Char) → List Char
  | [] => []
  | first :: rest => first ++ rest.flatMap (',' :: ·)

def fieldText (field : String × List Char) : List Char := quote field.1 ++ ':' :: field.2

mutual

def Json.print : Json → List Char
  | .null => ['n', 'u', 'l', 'l']
  | .bool true => ['t', 'r', 'u', 'e']
  | .bool false => ['f', 'a', 'l', 's', 'e']
  | .num value => value.text
  | .str value => quote value
  | .arr items => '[' :: (commaJoin items.texts ++ [']'])
  | .obj fields => '{' :: (commaJoin (fields.texts.map fieldText) ++ ['}'])

def Items.texts : Items → List (List Char)
  | .nil => []
  | .cons head tail => head.print :: tail.texts

def Fields.texts : Fields → List (String × List Char)
  | .nil => []
  | .cons key value rest => (key, value.print) :: rest.texts

end

/-- The order of keys in which `Array.prototype.sort` puts fields. -/
def keyLe {α : Type} (a b : String × α) : Bool := codeUnitsLe (codeUnits a.1) (codeUnits b.1)

mutual

def Json.normal : Json → Json
  | .arr items => .arr items.normal
  | .obj fields => .obj (.ofList (fields.normals.insertionSort fun a b ↦ keyLe a b))
  | value => value

def Items.normal : Items → Items
  | .nil => .nil
  | .cons head tail => .cons head.normal tail.normal

def Fields.normals : Fields → List (String × Json)
  | .nil => []
  | .cons key value rest => (key, value.normal) :: rest.normals

end

@[simp] theorem Fields.texts_ofList (fields : List (String × Json)) :
    (Fields.ofList fields).texts = fields.map fun field ↦ (field.1, field.2.print) := by
  induction fields with
  | nil => rfl
  | cons field rest ih => simp [Fields.ofList, Fields.texts, ih]

/-- The value of a property; `none` is `undefined`. -/
def Json.field? : Json → String → Option Json
  | .obj fields, name => fields.get? name
  | _, _ => none

theorem Fields.normals_ofList (fields : List (String × Json)) :
    (Fields.ofList fields).normals = fields.map fun field ↦ (field.1, field.2.normal) := by
  induction fields with
  | nil => rfl
  | cons field rest ih => rw [Fields.ofList, Fields.normals, ih, List.map_cons]

variable {fields : List (String × Json)} {name : String} {value : Json}

theorem Fields.get?_ofList (hkeys : (fields.map Prod.fst).Nodup) (h : (name, value) ∈ fields) :
    (Fields.ofList fields).get? name = some value := by
  induction fields with
  | nil => cases h
  | cons field rest ih =>
    obtain ⟨hnew, hrest⟩ := List.nodup_cons.mp hkeys
    rw [Fields.ofList, Fields.get?]
    rcases List.mem_cons.mp h with rfl | h
    · exact if_pos rfl
    · have hne : field.1 ≠ name := fun heq ↦ hnew (heq ▸ List.mem_map_of_mem h)
      rw [if_neg hne]
      exact ih hrest h

theorem Json.field?_normal (hkeys : (fields.map Prod.fst).Nodup) (h : (name, value) ∈ fields) :
    (Json.object fields).normal.field? name = some value.normal := by
  rw [Json.object, Json.normal, Json.field?, Fields.normals_ofList]
  have hperm := List.perm_insertionSort (fun a b : String × Json ↦ keyLe a b = true)
    (fields.map fun field ↦ (field.1, field.2.normal))
  refine Fields.get?_ofList ?_ (hperm.mem_iff.mpr (List.mem_map.mpr ⟨_, h, rfl⟩))
  rw [(hperm.map Prod.fst).nodup_iff, List.map_map]
  exact hkeys

section Reading

def Delimited (rest : List Char) : Prop := ∀ c ∈ rest.head?, c ∈ [',', ']', '}']

def leadKind (c : Char) : Nat :=
  if c = 'n' then 0
  else if c = 't' ∨ c = 'f' then 1
  else if c = '"' then 2
  else if c = '[' then 3
  else if c = '{' then 4
  else if c.isDigit ∨ c ∈ ['+', '-', '.', 'e'] then 5
  else 6

/-- The kind of a value. -/
def Json.kind : Json → Nat
  | .null => 0
  | .bool _ => 1
  | .str _ => 2
  | .arr _ => 3
  | .obj _ => 4
  | .num _ => 5

variable {c : Char}

theorem leadKind_numeral (h : c.isDigit ∨ c ∈ ['+', '-', '.', 'e']) : leadKind c = 5 := by
  have hne (d : Char) (hdigit : d.isDigit = false) (hmem : d ∉ ['+', '-', '.', 'e']) : c ≠ d := by
    rintro rfl
    exact h.elim (fun hc ↦ by simp [hdigit] at hc) hmem
  unfold leadKind
  rw [if_neg (hne 'n' (by decide) (by decide)),
    if_neg (not_or.mpr ⟨hne 't' (by decide) (by decide), hne 'f' (by decide) (by decide)⟩),
    if_neg (hne '"' (by decide) (by decide)), if_neg (hne '[' (by decide) (by decide)),
    if_neg (hne '{' (by decide) (by decide)), if_pos h]

theorem print_lead (value : Json) : ∃ c rest, value.print = c :: rest ∧ leadKind c = value.kind := by
  cases value with
  | null => exact ⟨_, _, rfl, by decide⟩
  | bool value => cases value <;> exact ⟨_, _, rfl, by decide⟩
  | num value =>
    obtain ⟨c, rest, htext⟩ := List.exists_cons_of_ne_nil value.nonempty
    exact ⟨c, rest, htext, leadKind_numeral (value.chars c (htext ▸ List.mem_cons_self ..))⟩
  | str value | arr items | obj fields => exact ⟨_, _, rfl, by rw [Json.kind]; decide⟩

variable {x y : List Char}

theorem kind_eq_of_print {a b : Json} (h : a.print ++ x = b.print ++ y) : a.kind = b.kind := by
  obtain ⟨c, rest, ha, hac⟩ := print_lead a
  obtain ⟨d, rest', hb, hbd⟩ := print_lead b
  rw [ha, hb] at h
  rw [← hac, ← hbd, (List.cons.inj h).1]

theorem kind_lt (value : Json) : value.kind < 6 := by
  cases value <;> simp [Json.kind]

theorem print_ne_closing {value : Json} (hc : leadKind c = 6) : value.print ++ x ≠ c :: y := by
  obtain ⟨d, rest, hprint, hkind⟩ := print_lead value
  rw [hprint]
  intro h
  have hlt := kind_lt value
  rw [← hkind, (List.cons.inj h).1, hc] at hlt
  exact absurd hlt (by decide)

theorem numeral_inj {m n : Numeral} (hx : Delimited x) (hy : Delimited y) (h : m.text ++ x = n.text ++ y) :
    m = n ∧ x = y := by
  have htake (n : Numeral) (x : List Char) (hx : Delimited x) :
      (n.text ++ x).takeWhile (fun c ↦ decide (c.isDigit ∨ c ∈ ['+', '-', '.', 'e'])) = n.text := by
    rw [List.takeWhile_append_of_pos fun c hc ↦ decide_eq_true (n.chars c hc)]
    cases x with
    | nil => simp
    | cons c rest =>
      have hc : c ∈ [',', ']', '}'] := hx c rfl
      rw [List.takeWhile_cons_of_neg, List.append_nil]
      rw [decide_eq_true_eq]
      revert hc
      simp only [List.mem_cons, List.not_mem_nil, or_false]
      rintro (rfl | rfl | rfl) <;> decide
  have htext : m.text = n.text := by rw [← htake m x hx, h, htake n y hy]
  rw [htext] at h
  refine ⟨?_, List.append_cancel_left h⟩
  cases m
  cases n
  simpa using htext

theorem delimited_cons {c : Char} (h : c ∈ [',', ']', '}']) (rest : List Char) : Delimited (c :: rest) := by
  intro d hd
  exact Option.some.inj hd ▸ h

theorem delimited_tail {c : Char} (hc : c ∈ [',', ']', '}']) (texts : List (List Char))
    (x : List Char) : Delimited (texts.flatMap (',' :: ·) ++ c :: x) := by
  cases texts with
  | nil => exact delimited_cons hc x
  | cons text rest => exact delimited_cons (by decide) _

mutual

theorem print_inj (a b : Json) {x y : List Char} (hx : Delimited x) (hy : Delimited y)
    (h : a.print ++ x = b.print ++ y) : a = b ∧ x = y := by
  have hkind := kind_eq_of_print h
  match a, b with
  | .null, .null | .arr .nil, .arr .nil | .obj .nil, .obj .nil => exact ⟨rfl, List.append_cancel_left h⟩
  | .bool v, .bool v' =>
    cases v <;> cases v'
    · exact ⟨rfl, List.append_cancel_left h⟩
    · exact absurd (List.cons.inj h).1 (by decide)
    · exact absurd (List.cons.inj h).1 (by decide)
    · exact ⟨rfl, List.append_cancel_left h⟩
  | .num m, .num n => exact (numeral_inj hx hy h).imp_left (congrArg Json.num)
  | .str s, .str t => exact (quote_inj h).imp_left (congrArg Json.str)
  | .arr (.cons head tail), .arr .nil =>
    simp only [Json.print, Items.texts, commaJoin, List.cons_append, List.append_assoc,
      List.nil_append, List.cons.injEq, true_and] at h
    exact absurd h (print_ne_closing (by decide))
  | .arr .nil, .arr (.cons head tail) =>
    simp only [Json.print, Items.texts, commaJoin, List.cons_append, List.append_assoc,
      List.nil_append, List.cons.injEq, true_and] at h
    exact absurd h.symm (print_ne_closing (by decide))
  | .arr (.cons head tail), .arr (.cons head' tail') =>
    have hitems := items_inj (.cons head tail) (.cons head' tail') (x := x) (y := y)
      (by simpa [Json.print, Items.texts, commaJoin] using h)
    exact hitems.imp_left (congrArg Json.arr)
  | .obj (.cons key value rest), .obj .nil
  | .obj .nil, .obj (.cons key value rest) => exact absurd (List.cons.inj (List.cons.inj h).2).1 (by decide)
  | .obj (.cons key value rest), .obj (.cons key' value' rest') =>
    have hfields := fields_inj (.cons key value rest) (.cons key' value' rest') (x := x) (y := y)
      (by simpa [Json.print, Fields.texts, commaJoin] using h)
    exact hfields.imp_left (congrArg Json.obj)

theorem items_inj (a b : Items) {x y : List Char}
    (h : a.texts.flatMap (',' :: ·) ++ ']' :: x = b.texts.flatMap (',' :: ·) ++ ']' :: y) :
    a = b ∧ x = y := by
  match a, b with
  | .nil, .nil => exact ⟨rfl, (List.cons.inj h).2⟩
  | .cons head tail, .nil | .nil, .cons head tail => exact absurd (List.cons.inj h).1 (by decide)
  | .cons head tail, .cons head' tail' =>
    simp only [Items.texts, List.flatMap_cons, List.cons_append, List.append_assoc, List.cons.injEq, true_and] at h
    obtain ⟨rfl, hrest⟩ := print_inj head head' (delimited_tail (by decide) _ _)
      (delimited_tail (by decide) _ _) h
    obtain ⟨rfl, hend⟩ := items_inj tail tail' hrest
    exact ⟨rfl, hend⟩

theorem fields_inj (a b : Fields) {x y : List Char} (h : (a.texts.map fieldText).flatMap (',' :: ·) ++ '}' :: x =
      (b.texts.map fieldText).flatMap (',' :: ·) ++ '}' :: y) : a = b ∧ x = y := by
  match a, b with
  | .nil, .nil => exact ⟨rfl, (List.cons.inj h).2⟩
  | .cons key value rest, .nil | .nil, .cons key value rest => exact absurd (List.cons.inj h).1 (by decide)
  | .cons key value rest, .cons key' value' rest' =>
    simp only [Fields.texts, fieldText, List.map_cons, List.flatMap_cons, List.cons_append,
      List.append_assoc, List.cons.injEq, true_and] at h
    obtain ⟨rfl, hvalue⟩ := quote_inj h
    obtain ⟨rfl, hrest⟩ := print_inj value value' (delimited_tail (by decide) _ _)
      (delimited_tail (by decide) _ _) (List.cons.inj hvalue).2
    obtain ⟨rfl, hend⟩ := fields_inj rest rest' hrest
    exact ⟨rfl, hend⟩

end

theorem print_injective : Function.Injective Json.print := by
  intro a b h
  have hnil : Delimited [] := nofun
  exact (print_inj a b hnil hnil (by rw [h])).1

end Reading

end PasswdSso
