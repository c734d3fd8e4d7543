import ApiTypings.Text.Camel
import ApiTypings.Page.Basic
import ApiTypings.Proofs.Text.Pieces

/-!
# Camel case of identifiers

The camel case of an identifier is made of identifier characters. Of whatever name, it does not
begin with a small ASCII letter, so that a name which joins owner and field shows where the field
begins.
-/
namespace ApiTypings.Text

open Letter
open Page (isIdentifierChar forall_isIdentifierChar)

theorem smalls_identifier {c : Char} (h : isIdentifierChar c = true) :
    ∀ d ∈ smalls c, isIdentifierChar d = true :=
  List.all_eq_true.mp <| forall_isIdentifierChar
    (P := fun c => (smalls c).all isIdentifierChar = true) (by decide +kernel) h

theorem capitals_identifier {c : Char} (h : isIdentifierChar c = true) :
    ∀ d ∈ capitals c, isIdentifierChar d = true :=
  List.all_eq_true.mp <| forall_isIdentifierChar
    (P := fun c => (capitals c).all isIdentifierChar = true) (by decide +kernel) h

theorem isLower_iff {c : Char} : c.isLower = true ↔ 0x61 ≤ c.toNat ∧ c.toNat ≤ 0x7A := by
  unfold Char.isLower
  rw [Bool.and_eq_true, decide_eq_true_iff, decide_eq_true_iff]
  rfl

theorem isLower_ofNat {n : Nat} (h : n < 0x61 ∨ 0x7A < n) : (Char.ofNat n).isLower = false := by
  rw [← Bool.not_eq_true, isLower_iff]
  by_cases hv : n.isValidChar
  · have hn : (Char.ofNat n).toNat = n := by rw [Char.ofNat, dif_pos hv]; rfl
    omega
  · rw [Char.ofNat, dif_neg hv]
    decide

theorem capitalCode?_eq_some {n k : Nat} (h : capitalCode? n = some k) : k < 0x61 ∨ 0x7A < k := by
  unfold capitalCode? at h
  split at h
  · next hn =>
    simp only [Bool.and_eq_true, decide_eq_true_eq] at hn
    have := Option.some.inj h
    omega
  · split at h
    · next hn =>
      simp only [Bool.and_eq_true, decide_eq_true_eq] at hn
      have := Option.some.inj h
      omega
    · split at h
      · next hn =>
        obtain ⟨r, hr, hb⟩ := List.any_eq_true.mp hn
        have hlow : ∀ r ∈ alternatingRuns, 0x100 ≤ r.1 := by decide
        have := hlow r hr
        simp only [Bool.and_eq_true, decide_eq_true_eq] at hb
        have := Option.some.inj h
        omega
      · obtain ⟨p, hp, rfl⟩ := Option.map_eq_some_iff.mp h
        have hlow : ∀ p ∈ scatteredPairs, 0x7A < p.1 := by decide
        exact Or.inr (hlow p (List.mem_of_find?_eq_some hp))

theorem mem_of_lookup {β : Type} {n : Nat} {b : β} {table : List (Nat × β)}
    (h : table.lookup n = some b) : (n, b) ∈ table := by
  obtain ⟨before, after, rfl, -⟩ := List.lookup_eq_some_iff.mp h
  exact List.mem_append_right before List.mem_cons_self

/-- The capital form of a character does not begin with a small ASCII letter. -/
theorem exists_capitals_eq (c : Char) : ∃ d ds, capitals c = d :: ds ∧ d.isLower = false := by
  unfold capitals
  split
  · next codes hcodes =>
    have hall : ∀ e ∈ expandingCapitals, ∃ k ks, e.2 = k :: ks ∧ (k < 0x61 ∨ 0x7A < k) := by
      unfold expandingCapitals
      simp
    obtain ⟨k, ks, rfl, hk⟩ := hall _ (mem_of_lookup hcodes)
    exact ⟨_, _, rfl, isLower_ofNat hk⟩
  · next n _ _ hn =>
    have hall : ∀ e ∈ middleForms, 0x7A < e.2.1 := by decide
    exact ⟨_, _, rfl, isLower_ofNat (Or.inr (hall _ (mem_of_lookup hn)))⟩
  · split
    · next n hn => exact ⟨_, _, rfl, isLower_ofNat (capitalCode?_eq_some hn)⟩
    · next hn =>
      refine ⟨_, _, rfl, ?_⟩
      rw [← Bool.not_eq_true, isLower_iff]
      intro hl
      simp [capitalCode?, hl] at hn

theorem mem_humps {word w s : List Char} {mode : CaseMode} {c : Char}
    (hw : w ∈ humps word mode s) (hc : c ∈ w) : c ∈ word ∨ c ∈ s := by
  fun_induction humps word mode s <;> grind

theorem ne_nil_of_mem_humps {word w s : List Char} {mode : CaseMode}
    (hm : mode = .capital → word ≠ []) (hw : w ∈ humps word mode s) : w ≠ [] := by
  fun_induction humps word mode s with
  | case1 => simp at hw
  | case2 word mode hne => simp_all
  | case3 word mode c => simp_all
  | case4 word mode c d rest _ ih =>
    rcases List.mem_cons.mp hw with rfl | hw
    · simp
    · exact ih (by simp) hw
  | case5 word mode c d rest _ hcap ih =>
    rcases List.mem_cons.mp hw with rfl | hw
    · simpa using hm hcap.1
    · exact ih (by simp) hw
  | case6 word mode c d rest _ _ ih => exact ih (by simp) hw

/-- The words that a name is cut into; each holds letters and digits of the name only. -/
def camelWords (name : String) : List (List Char) :=
  ((pieces (fun c => !isAlphanumeric c) name.toList).filter (fun p => !p.isEmpty)).flatMap
    (humps [] .undetermined)

theorem camelCase_eq (name : String) :
    camelCase name = String.ofList ((camelWords name).flatMap capitalised) := rfl

theorem mem_camelWords {name : String} {w : List Char} (hw : w ∈ camelWords name) :
    w ≠ [] ∧ ∀ c ∈ w, c ∈ name.toList ∧ isAlphanumeric c = true := by
  obtain ⟨p, hp, hw⟩ := List.mem_flatMap.mp hw
  refine ⟨ne_nil_of_mem_humps (by simp) hw, fun c hc => ?_⟩
  rcases mem_humps hw hc with h | h
  · simp at h
  · simpa using mem_of_mem_pieces (List.mem_filter.mp hp).1 h

theorem capitalised_identifier {w : List Char} (h : ∀ c ∈ w, isIdentifierChar c = true) :
    ∀ d ∈ capitalised w, isIdentifierChar d = true := by
  cases w with
  | nil => simp [capitalised]
  | cons c cs =>
    intro d hd
    rw [capitalised, List.mem_append] at hd
    rcases hd with hd | hd
    · exact capitals_identifier (h c List.mem_cons_self) d hd
    · obtain ⟨e, he, hd⟩ := List.mem_flatMap.mp hd
      exact smalls_identifier (h e (List.mem_cons_of_mem c he)) d hd

theorem camelCase_identifier {name : String} (h : ∀ c ∈ name.toList, isIdentifierChar c = true) :
    ∀ d ∈ (camelCase name).toList, isIdentifierChar d = true := by
  intro d hd
  rw [camelCase_eq, String.toList_ofList] at hd
  obtain ⟨w, hw, hd⟩ := List.mem_flatMap.mp hd
  exact capitalised_identifier (fun c hc => h c ((mem_camelWords hw).2 c hc).1) d hd

/-- A camel case is empty or begins with something else than a small ASCII letter. -/
theorem camelCase_head (name : String) :
    ∀ d ∈ (camelCase name).toList.head?, d.isLower = false := by
  intro d hd
  rw [camelCase_eq, String.toList_ofList] at hd
  cases hws : camelWords name with
  | nil => simp [hws] at hd
  | cons w ws =>
    have hw : w ∈ camelWords name := by simp [hws]
    cases w with
    | nil => exact absurd rfl (mem_camelWords hw).1
    | cons c cs =>
      obtain ⟨e, es, he, hl⟩ := exists_capitals_eq c
      rw [hws, List.flatMap_cons, capitalised, he] at hd
      obtain rfl : e = d := by simpa using hd
      exact hl

end ApiTypings.Text
