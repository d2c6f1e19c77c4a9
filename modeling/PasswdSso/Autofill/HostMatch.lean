import Mathlib.Data.List.Infix
import Mathlib.Tactic.Common

/-!
# Matching an entry's host with a page's host

`isHostMatch` of `extension/src/lib/url-matching.ts` and of `ios/Shared/URLMatching/URLMatcher.swift` decides whether
the credentials of an entry are offered on a page: the hosts are equal or the page's host is below the entry's host,
after a leading `www.` was removed from both. A host is the list of its labels here, and the public suffixes are an
arbitrary set of hosts beside the single labels, which are public suffixes by default.
-/

namespace PasswdSso.Autofill

open List

abbrev Label := List Char

def wwwDot : List Char := ['w', 'w', 'w', '.']

/-- `normalizeHost`: `host.replace(/^www\./i, "").toLowerCase()`. -/
def normalizeHost (host : List Char) : List Char :=
  (if (host.take 4).map Char.toLower = wwwDot then host.drop 4 else host).map Char.toLower

/-- `isHostMatch` of the browser extension. -/
def isHostMatch (entryHost tabHost : List Char) : Bool :=
  let e := normalizeHost entryHost
  let t := normalizeHost tabHost
  e = t || ('.' :: e).isSuffixOf t

namespace Ios

/-- `normalizeHost` of the iOS app, which lowers the case first. -/
def normalizeHost (host : List Char) : List Char :=
  let result := host.map Char.toLower
  if wwwDot.isPrefixOf result then result.drop 4 else result

/-- `isHostMatch` of the iOS app. -/
def isHostMatch (stored current : List Char) : Bool :=
  let e := normalizeHost stored
  let t := normalizeHost current
  if e = t then true else ('.' :: e).isSuffixOf t

end Ios

/-- The characters of a DNS label. -/
def isLabelChar (c : Char) : Bool := c.isAlphanum || c = '-' || c = '_'

/-- A DNS host name. -/
structure Host where
  labels : List Label
  labels_ne_nil : labels ≠ []
  valid : ∀ label ∈ labels, label ≠ [] ∧ ∀ c ∈ label, isLabelChar c = true

/-- The host as it is written. -/
def Host.text (host : Host) : List Char := ['.'].intercalate host.labels

def Host.isLowerCase (host : Host) : Bool := host.labels.all (·.all fun c ↦ c.toLower = c)

section Sites

variable (rules : List Label → Bool)

/-- The hosts of the list, and by its default rule the single labels. -/
def isPublicSuffix (host : List Label) : Bool := host.length ≤ 1 || rules host

/-- The longest public suffix of the host and one label more. -/
def registrableDomain : List Label → Option (List Label)
  | [] => none
  | label :: rest =>
    if isPublicSuffix rules (label :: rest) then none
    else if isPublicSuffix rules rest then some (label :: rest)
    else registrableDomain rest

/-- The host is `base` or below it, and there is no public suffix from `base` down to the host. -/
def Encloses (base host : List Label) : Prop :=
  base <:+ host ∧ ∀ suffix, suffix <:+ host → base <:+ suffix → isPublicSuffix rules suffix = false

variable {rules} {base host domain : List Label}

theorem Encloses.registrableDomain_eq (h : Encloses rules base host) :
    registrableDomain rules host = registrableDomain rules base := by
  obtain ⟨⟨above, rfl⟩, hfree⟩ := h
  induction above with
  | nil => rfl
  | cons label above ih =>
    have hhere := hfree _ suffix_rfl (suffix_append (label :: above) base)
    have hbelow := hfree (above ++ base) (suffix_cons label _) (suffix_append above base)
    have hskip : registrableDomain rules (label :: above ++ base) = registrableDomain rules (above ++ base) := by
      rw [cons_append] at hhere ⊢
      rw [registrableDomain, hhere, hbelow]
      rfl
    rw [hskip]
    exact ih fun suffix hsuffix ↦ hfree suffix (hsuffix.trans (suffix_cons label _))

theorem encloses_registrableDomain (h : registrableDomain rules host = some domain) :
    Encloses rules domain host := by
  induction host with
  | nil => exact nomatch h
  | cons label rest ih =>
    rw [registrableDomain] at h
    split_ifs at h with hhere hrest
    · obtain rfl := Option.some.inj h
      refine ⟨suffix_rfl, fun suffix hsuffix hbelow ↦ ?_⟩
      rw [hsuffix.eq_of_length_le hbelow.length_le]
      exact Bool.not_eq_true _ ▸ hhere
    · obtain ⟨hdomain, hfree⟩ := ih h
      refine ⟨hdomain.trans (suffix_cons label rest), fun suffix hsuffix hbelow ↦ ?_⟩
      rcases suffix_cons_iff.mp hsuffix with rfl | hsuffix
      · exact Bool.not_eq_true _ ▸ hhere
      · exact hfree suffix hsuffix hbelow

theorem registrableDomain_isSome (h : isPublicSuffix rules host = false) : (registrableDomain rules host).isSome := by
  induction host with
  | nil => exact nomatch h
  | cons label rest ih =>
    rw [registrableDomain, h]
    by_cases hrest : isPublicSuffix rules rest = true
    · simp [hrest]
    · simpa [hrest] using ih (Bool.not_eq_true _ ▸ hrest)

end Sites

section Texts

/-- The labels of a normalized host. -/
def stripWww : List Label → List Label
  | label :: next :: rest => if label = ['w', 'w', 'w'] then next :: rest else label :: next :: rest
  | labels => labels

theorem Host.dot_notMem (host : Host) : ∀ label ∈ host.labels, '.' ∉ label := by
  intro label hlabel hdot
  exact absurd ((host.valid label hlabel).2 '.' hdot) (by decide)

/-- The labels of a host, and of what is left of it without its first labels. -/
structure AreLabels (labels : List Label) : Prop where
  ne_nil : labels ≠ []
  dot_notMem : ∀ label ∈ labels, '.' ∉ label
  lower : ∀ label ∈ labels, label.map Char.toLower = label

theorem Host.areLabels {host : Host} (hlower : host.isLowerCase = true) : AreLabels host.labels where
  ne_nil := host.labels_ne_nil
  dot_notMem := host.dot_notMem
  lower label hlabel := by
    simp only [Host.isLowerCase, all_eq_true, decide_eq_true_eq] at hlower
    exact (map_congr_left (hlower label hlabel)).trans (map_id label)

theorem AreLabels.tail {label next : Label} {rest : List Label} (h : AreLabels (label :: next :: rest)) :
    AreLabels (next :: rest) where
  ne_nil := cons_ne_nil next rest
  dot_notMem other hother := h.dot_notMem other (mem_cons_of_mem label hother)
  lower other hother := h.lower other (mem_cons_of_mem label hother)

variable {labels : List Label}

theorem AreLabels.stripWww (h : AreLabels labels) : AreLabels (stripWww labels) := by
  unfold Autofill.stripWww
  split
  · split_ifs
    · exact h.tail
    · exact h
  · exact h

theorem stripWww_eq_or (labels : List Label) :
    stripWww labels = labels ∨ labels = ['w', 'w', 'w'] :: stripWww labels := by
  unfold stripWww
  split
  · split_ifs with hwww
    · exact .inr (congrArg (· :: _) hwww)
    · exact .inl rfl
  · exact .inl rfl

theorem stripWww_suffix (labels : List Label) : stripWww labels <:+ labels := by
  rcases stripWww_eq_or labels with heq | hcons
  · rw [heq]
  · exact ⟨[_], hcons.symm⟩

theorem AreLabels.map_toLower (h : AreLabels labels) :
    (['.'].intercalate labels).map Char.toLower = ['.'].intercalate labels := by
  induction labels with
  | nil => exact absurd rfl h.ne_nil
  | cons label rest ih =>
    have hlabel := h.lower label mem_cons_self
    cases rest with
    | nil => simpa using hlabel
    | cons next rest =>
      rw [intercalate_cons_cons, map_append, map_append, hlabel, ih h.tail]
      rfl

/-- A text that starts with `www.` has `www` as its first label. -/
theorem take_four_eq_wwwDot {label text : List Char} (hdot : '.' ∉ label) :
    (label ++ ['.'] ++ text).take 4 = wwwDot ↔ label = ['w', 'w', 'w'] := by
  constructor
  · intro h
    rcases label with _ | ⟨a, _ | ⟨b, _ | ⟨c, _ | ⟨d, rest⟩⟩⟩⟩
    · simp [wwwDot] at h
    · simp_all [wwwDot]
    · simp_all [wwwDot]
    · simpa [wwwDot] using h
    · have hd : d = '.' := by simp_all [wwwDot]
      exact absurd (by simp [hd]) hdot
  · rintro rfl
    rfl

theorem AreLabels.normalizeHost (h : AreLabels labels) :
    normalizeHost (['.'].intercalate labels) = ['.'].intercalate (Autofill.stripWww labels) := by
  rw [Autofill.normalizeHost, map_take, h.map_toLower, ← h.stripWww.map_toLower]
  congr 1
  rcases labels with _ | ⟨label, _ | ⟨next, rest⟩⟩
  · exact absurd rfl h.ne_nil
  · rw [intercalate_singleton, if_neg, Autofill.stripWww, intercalate_singleton]
    · exact nofun
    · intro hwww
      exact h.dot_notMem label mem_cons_self (mem_of_mem_take (hwww ▸ by decide : '.' ∈ label.take 4))
  · rw [intercalate_cons_cons, Autofill.stripWww,
      if_congr (take_four_eq_wwwDot (h.dot_notMem label mem_cons_self)) rfl rfl]
    split_ifs with hwww
    · rw [hwww]
      rfl
    · rw [intercalate_cons_cons]

theorem AreLabels.intercalate_inj {base : List Label} (h : AreLabels labels) (hbase : AreLabels base) :
    ['.'].intercalate base = ['.'].intercalate labels ↔ base = labels := by
  constructor
  · intro heq
    rw [← splitOn_intercalate '.' h.dot_notMem h.ne_nil, ← heq,
      splitOn_intercalate '.' hbase.dot_notMem hbase.ne_nil]
  · exact congrArg _

theorem dot_suffix_append {label first second : List Char} (hdot : '.' ∉ label) :
    '.' :: first <:+ label ++ '.' :: second ↔ first = second ∨ '.' :: first <:+ second := by
  induction label with
  | nil => rw [nil_append, suffix_cons_iff, cons.injEq, and_iff_right rfl]
  | cons c label ih =>
    rw [mem_cons, not_or] at hdot
    rw [cons_append, suffix_cons_iff, cons.injEq, ih hdot.2, or_iff_right]
    exact fun heq ↦ hdot.1 heq.1

/-- A text that ends with a dot and another host is a host below it. -/
theorem AreLabels.dot_suffix_iff {base : List Label} (h : AreLabels labels) (hbase : AreLabels base) :
    '.' :: ['.'].intercalate base <:+ ['.'].intercalate labels ↔ base <:+ labels ∧ base ≠ labels := by
  induction labels with
  | nil => exact absurd rfl h.ne_nil
  | cons label rest ih =>
    have hdot := h.dot_notMem label mem_cons_self
    cases rest with
    | nil =>
      rw [intercalate_singleton]
      constructor
      · exact fun hsuffix ↦ absurd (hsuffix.subset mem_cons_self) hdot
      · rintro ⟨hsuffix, hne⟩
        rcases suffix_cons_iff.mp hsuffix with heq | hnil
        · exact absurd heq hne
        · exact absurd (suffix_nil.mp hnil) hbase.ne_nil
    | cons next rest =>
      rw [intercalate_cons_cons, append_assoc, singleton_append, dot_suffix_append hdot,
        h.tail.intercalate_inj hbase, ih h.tail]
      constructor
      · intro hbelow
        have hsuffix : base <:+ next :: rest := hbelow.elim (· ▸ suffix_rfl) And.left
        refine ⟨hsuffix.trans (suffix_cons label _), ?_⟩
        rintro rfl
        exact absurd hsuffix.length_le (by simp)
      · rintro ⟨hsuffix, hne⟩
        have htail := (suffix_cons_iff.mp hsuffix).resolve_left hne
        exact or_iff_not_imp_left.mpr fun hother ↦ ⟨htail, hother⟩

theorem Host.isHostMatch_iff {e t : Host} (he : e.isLowerCase = true) (ht : t.isLowerCase = true) :
    isHostMatch e.text t.text = true ↔ stripWww e.labels <:+ stripWww t.labels := by
  have hstrip := (Host.areLabels he).stripWww
  have hstrip' := (Host.areLabels ht).stripWww
  rw [isHostMatch, Host.text, Host.text, (Host.areLabels he).normalizeHost, (Host.areLabels ht).normalizeHost,
    Bool.or_eq_true, decide_eq_true_eq, isSuffixOf_iff_suffix, hstrip'.intercalate_inj hstrip,
    hstrip'.dot_suffix_iff hstrip]
  constructor
  · exact fun hmatch ↦ hmatch.elim (· ▸ suffix_rfl) And.left
  · exact fun hsuffix ↦ or_iff_not_imp_left.mpr fun hne ↦ ⟨hsuffix, hne⟩

end Texts

theorem Ios.normalizeHost_eq (host : List Char) : Ios.normalizeHost host = Autofill.normalizeHost host := by
  have hwwwDot : wwwDot.isPrefixOf (host.map Char.toLower) = true ↔ (host.take 4).map Char.toLower = wwwDot := by
    rw [ isPrefixOf_iff_prefix, prefix_iff_eq_take, ← map_take, eq_comm]
    rfl
  rw [Ios.normalizeHost, Autofill.normalizeHost]
  by_cases hwww : (host.take 4).map Char.toLower = wwwDot
  · rw [if_pos (hwwwDot.mpr hwww), if_pos hwww, map_drop]
  · rw [if_neg (mt hwwwDot.mp hwww), if_neg hwww]

theorem Ios.isHostMatch_eq (stored current : List Char) :
    Ios.isHostMatch stored current = Autofill.isHostMatch stored current := by
  rw [Ios.isHostMatch, Autofill.isHostMatch, Ios.normalizeHost_eq, Ios.normalizeHost_eq]
  by_cases heq : Autofill.normalizeHost stored = Autofill.normalizeHost current
  · simp [heq]
  · simp [heq]

/-- No public suffix lies from the entry's host, or from what is left of it without `www`, down to the page's host. -/
def WithinSite (rules : List Label → Bool) (e t : Host) : Prop :=
  Encloses rules e.labels t.labels ∨ Encloses rules (stripWww e.labels) t.labels

/-- A match stays on the entry's site exactly if no public suffix is between the hosts, and both implementations give
the same answer. -/
theorem hostMatch_sameSite_iff (rules : List Label → Bool) (e t : Host) (he : e.isLowerCase = true)
    (ht : t.isLowerCase = true) (hentry : isPublicSuffix rules e.labels = false) :
    ((isHostMatch e.text t.text = true → registrableDomain rules e.labels = registrableDomain rules t.labels) ↔
      (isHostMatch e.text t.text = true → WithinSite rules e t)) ∧
    ∀ stored current : Host, Ios.isHostMatch stored.text current.text = isHostMatch stored.text current.text := by
  refine ⟨forall_congr' fun hmatch ↦ ?_, fun stored current ↦ Ios.isHostMatch_eq _ _⟩
  have hbelow : stripWww e.labels <:+ t.labels :=
    ((Host.isHostMatch_iff he ht).mp hmatch).trans (stripWww_suffix t.labels)
  constructor
  · intro hsame
    obtain ⟨domain, hdomain⟩ := Option.isSome_iff_exists.mp (registrableDomain_isSome hentry)
    obtain ⟨hsuffix, hfree⟩ := encloses_registrableDomain (hsame ▸ hdomain)
    have hentrySuffix := (encloses_registrableDomain hdomain).1
    rcases stripWww_eq_or e.labels with heq | hcons
    · exact .inl ⟨heq ▸ hbelow, fun suffix hsuffix hbase ↦ hfree suffix hsuffix (hentrySuffix.trans hbase)⟩
    -- with `www`, the registrable domain is the whole host or lies within the rest of it
    · rcases List.suffix_cons_iff.mp (hcons ▸ hentrySuffix) with hwhole | habove
      · exact .inl ⟨hcons.trans hwhole.symm ▸ hsuffix, hcons.trans hwhole.symm ▸ hfree⟩
      · exact .inr ⟨hbelow, fun suffix hsuffix hbase ↦ hfree suffix hsuffix (habove.trans hbase)⟩
  · rintro (hwithin | hwithin)
    · exact hwithin.registrableDomain_eq.symm
    · have hentryWithin : Encloses rules (stripWww e.labels) e.labels := by
        refine ⟨stripWww_suffix e.labels, fun suffix hsuffix hbase ↦ ?_⟩
        rcases stripWww_eq_or e.labels with heq | hcons
        · rw [hsuffix.eq_of_length_le (heq ▸ hbase.length_le), hentry]
        · rw [hcons] at hsuffix
          rcases List.suffix_cons_iff.mp hsuffix with hwhole | habove
          · rw [hwhole, ← hcons, hentry]
          · exact hwithin.2 suffix (habove.trans hwithin.1) hbase
      exact hentryWithin.registrableDomain_eq.trans hwithin.registrableDomain_eq.symm

def exampleCom : Host := ⟨["example".toList, "com".toList], by decide, by simp [isLabelChar]⟩

def loginExampleCom : Host := ⟨["login".toList, "example".toList, "com".toList], by decide, by simp [isLabelChar]⟩

theorem hostMatch_sameSite_iff_login : isHostMatch exampleCom.text loginExampleCom.text = true ∧
      registrableDomain (fun _ ↦ false) exampleCom.labels =
        registrableDomain (fun _ ↦ false) loginExampleCom.labels := by
  have hmatch : isHostMatch exampleCom.text loginExampleCom.text = true := by decide
  refine ⟨hmatch, ((hostMatch_sameSite_iff (fun _ ↦ false) exampleCom loginExampleCom (by decide) (by decide)
    (by decide)).1.mpr fun _ ↦ .inl ⟨by decide, fun suffix _ hbelow ↦ ?_⟩) hmatch⟩
  have hlength : 2 ≤ suffix.length := hbelow.length_le
  simp only [isPublicSuffix, Bool.or_false, decide_eq_false_iff_not]
  omega

/-- `www.com`, which is the registrable domain of its site. -/
def wwwCom : Host := ⟨["www".toList, "com".toList], by decide, by simp [isLabelChar]⟩

/-- An entry for `www.com` is offered on every host below `com`. -/
theorem hostMatch_crosses_sites :
    ¬∀ (rules : List Label → Bool) (e t : Host), e.isLowerCase = true → t.isLowerCase = true →
      isPublicSuffix rules e.labels = false → isHostMatch e.text t.text = true →
      registrableDomain rules e.labels = registrableDomain rules t.labels := by
  intro h
  exact absurd (h (fun _ ↦ false) wwwCom exampleCom (by decide) (by decide) (by decide) (by decide)) (by decide)

end PasswdSso.Autofill
