import Mathlib.Data.List.Forall2
import Mathlib.Data.List.Induction
import UpgradeAudit.Table.Lemmas

/-!
# Passes over lists

A pass that may fail turns a list into one of the same length, item by item. What a later pass keeps
under a key is the last item that was written there. Both facts are stated here for any list, so
that the passes of a validation can be followed from the item they started with. A pass that fails
does so with the first of the faults on its way (`FailsWith`).
-/

namespace UpgradeAudit.Proofs

universe u

variable {ε α β : Type u}

lemma bind_eq_ok_iff {x : Except ε α} {f : α → Except ε β} {b : β} :
    x >>= f = .ok b ↔ ∃ a, x = .ok a ∧ f a = .ok b := by
  cases x with
  | error e => simp [bind, Except.bind]
  | ok a => simp [bind, Except.bind]

lemma exists_ok_of_toOption {ε α β : Type} {x : Except ε α} {f : α → Option β} {b : β}
    (h : x.toOption.bind f = some b) : ∃ a, x = .ok a ∧ f a = some b := by
  cases x with
  | error e => cases h
  | ok a => exact ⟨a, rfl, h⟩

theorem mapM_eq_ok_iff {f : α → Except ε β} {xs : List α} {ys : List β} :
    xs.mapM f = .ok ys ↔ List.Forall₂ (fun x y => f x = .ok y) xs ys := by
  induction xs generalizing ys with
  | nil => simp [pure, Except.pure, eq_comm]
  | cons x rest ih =>
    rw [List.mapM_cons, bind_eq_ok_iff, List.forall₂_cons_left_iff]
    refine exists_congr fun y => ?_
    rw [bind_eq_ok_iff]
    constructor
    · rintro ⟨hy, others, hrest, hys⟩
      exact ⟨others, hy, ih.mp hrest, (Except.ok.inj hys).symm⟩
    · rintro ⟨others, hy, hrest, rfl⟩
      exact ⟨hy, others, ih.mpr hrest, rfl⟩

section Faults

/-- A computation goes over faults in their order: it fails with the first, and succeeds if there is
none. -/
def FailsWith (faults : List ε) : Except ε α → Prop
  | .ok _ => faults = []
  | .error e => faults.head? = some e

variable {x : Except ε α} {faults : List ε}

lemma FailsWith.exists_ok_iff (h : FailsWith faults x) : (∃ a, x = .ok a) ↔ faults = [] := by
  cases x with
  | ok a => simpa [FailsWith] using h
  | error e =>
    have hne : faults ≠ [] := by
      rintro rfl
      cases h
    simp [hne]

lemma FailsWith.eq_error_iff (h : FailsWith faults x) (e : ε) :
    x = .error e ↔ faults.head? = some e := by
  cases x with
  | ok a =>
    have hnil : faults = [] := h
    simp [hnil]
  | error e' =>
    have hhead : faults.head? = some e' := h
    simp [hhead]

lemma failsWith_bind {f : α → Except ε β} {later : List ε} (hx : FailsWith faults x)
    (hf : ∀ a, x = .ok a → FailsWith later (f a)) : FailsWith (faults ++ later) (x >>= f) := by
  cases x with
  | error e =>
    have hhead : faults.head? = some e := hx
    change (faults ++ later).head? = some e
    rw [List.head?_append, hhead, Option.some_or]
  | ok a =>
    have hnil : faults = [] := hx
    rw [hnil, List.nil_append]
    exact hf a rfl

lemma failsWith_return {f : α → β} (hx : FailsWith faults x) :
    FailsWith faults (x >>= fun a => pure (f a)) := by
  rw [← List.append_nil faults]
  exact failsWith_bind hx fun a _ => rfl

lemma failsWith_mapM {f : α → Except ε β} {g : α → List ε} (xs : List α)
    (h : ∀ x ∈ xs, FailsWith (g x) (f x)) : FailsWith (xs.flatMap g) (xs.mapM f) := by
  induction xs with
  | nil => rfl
  | cons first rest ih =>
    have hrest := ih fun x hx => h x (List.mem_cons_of_mem first hx)
    rw [List.mapM_cons, List.flatMap_cons]
    exact failsWith_bind (h first List.mem_cons_self) fun _ _ => failsWith_return hrest

/-- The fault of a computation, if it fails. -/
def faultOf : Except ε α → List ε
  | .ok _ => []
  | .error e => [e]

lemma failsWith_faultOf (x : Except ε α) : FailsWith (faultOf x) x := by
  cases x <;> rfl

lemma exists_mapM_eq_ok_iff {f : α → Except ε β} {xs : List α} :
    (∃ ys, xs.mapM f = .ok ys) ↔ ∀ x ∈ xs, ∃ y, f x = .ok y := by
  rw [(failsWith_mapM xs fun x _ => failsWith_faultOf (f x)).exists_ok_iff,
    List.flatMap_eq_nil_iff]
  exact forall₂_congr fun x _ => (failsWith_faultOf (f x)).exists_ok_iff.symm

theorem mapM_eq_error_iff {f : α → Except ε β} {xs : List α} {e : ε} :
    xs.mapM f = .error e ↔ ∃ before x after, xs = before ++ x :: after ∧
      (∀ earlier ∈ before, ∃ y, f earlier = .ok y) ∧ f x = .error e := by
  rw [(failsWith_mapM xs fun x _ => failsWith_faultOf (f x)).eq_error_iff, List.head?_flatMap,
    List.findSome?_eq_some_iff]
  simp only [List.head?_eq_none_iff, ← (failsWith_faultOf (f _)).exists_ok_iff,
    ← (failsWith_faultOf (f _)).eq_error_iff]
  refine exists_congr fun before => exists_congr fun x => exists_congr fun after => ?_
  exact and_congr_right fun _ => and_comm

end Faults

section Related

variable {R : α → β → Prop} {xs : List α} {ys : List β} {p : α → Bool} {q : β → Bool}

lemma find?_forall₂ (h : List.Forall₂ R xs ys) (hpq : ∀ x y, R x y → p x = q y) :
    (xs.find? p = none ∧ ys.find? q = none) ∨
      ∃ x y, xs.find? p = some x ∧ ys.find? q = some y ∧ R x y := by
  induction h with
  | nil => exact .inl ⟨rfl, rfl⟩
  | @cons x y _ _ hxy _ ih =>
    rw [List.find?_cons, List.find?_cons, ← hpq x y hxy]
    cases p x with
    | false => exact ih
    | true => exact .inr ⟨x, y, rfl, rfl, hxy⟩

lemma findRev?_forall₂ (h : List.Forall₂ R xs ys) (hpq : ∀ x y, R x y → p x = q y) :
    (xs.findRev? p = none ∧ ys.findRev? q = none) ∨
      ∃ x y, xs.findRev? p = some x ∧ ys.findRev? q = some y ∧ R x y := by
  rw [List.findRev?_eq_find?_reverse, List.findRev?_eq_find?_reverse]
  exact find?_forall₂ (List.forall₂_reverse_iff.mpr h) hpq

lemma flatMap_forall₂ {γ : Type u} {f : α → List γ} {g : β → List γ} (h : List.Forall₂ R xs ys)
    (hfg : ∀ x y, R x y → f x = g y) : xs.flatMap f = ys.flatMap g := by
  induction h with
  | nil => rfl
  | @cons x y _ _ hxy _ ih => rw [List.flatMap_cons, List.flatMap_cons, hfg x y hxy, ih]

lemma exists_of_forall₂_left {x : α} (h : List.Forall₂ R xs ys) (hx : x ∈ xs) :
    ∃ y ∈ ys, R x y := by
  induction h with
  | nil => cases hx
  | @cons _ y _ _ hxy _ ih =>
    rcases List.mem_cons.mp hx with rfl | hx
    · exact ⟨y, List.mem_cons_self, hxy⟩
    · obtain ⟨y', hy', hxy'⟩ := ih hx
      exact ⟨y', List.mem_cons_of_mem _ hy', hxy'⟩

end Related

section LastMatch

variable {xs : List α} {x : α} {p : α → Bool}

lemma findRev?_concat (xs : List α) (x : α) (p : α → Bool) :
    (xs ++ [x]).findRev? p = if p x then some x else xs.findRev? p := by
  by_cases h : p x <;> simp [h]

lemma findRev?_append (xs ys : List α) (p : α → Bool) :
    (xs ++ ys).findRev? p = (ys.findRev? p).or (xs.findRev? p) := by
  simp [List.findRev?_eq_find?_reverse]

lemma findRev?_map (xs : List α) (f : α → β) (p : β → Bool) :
    (xs.map f).findRev? p = (xs.findRev? fun a => p (f a)).map f := by
  rw [List.findRev?_eq_find?_reverse, List.findRev?_eq_find?_reverse, ← List.map_reverse,
    List.find?_map]
  rfl

lemma mem_of_findRev? (h : xs.findRev? p = some x) : x ∈ xs := by
  rw [List.findRev?_eq_find?_reverse] at h
  exact List.mem_reverse.mp (List.mem_of_find?_eq_some h)

lemma findRev?_holds (h : xs.findRev? p = some x) : p x := by
  rw [List.findRev?_eq_find?_reverse] at h
  exact List.find?_some h

lemma findRev?_eq_none_iff : xs.findRev? p = none ↔ ∀ x ∈ xs, ¬p x := by
  simp

lemma findRev?_flatMap_eq_none {f : α → List β} {p : β → Bool} (h : ∀ a ∈ xs, ∀ b ∈ f a, ¬p b) :
    (xs.flatMap f).findRev? p = none := by
  refine findRev?_eq_none_iff.mpr fun b hb => ?_
  obtain ⟨a, ha, hb⟩ := List.mem_flatMap.mp hb
  exact h a ha b hb

lemma findRev?_filterMap (xs : List α) (f : α → Option β) (p : β → Bool) :
    (xs.filterMap f).findRev? p = (xs.findRev? fun a => (f a).any p).bind f := by
  rw [List.findRev?_eq_find?_reverse, List.findRev?_eq_find?_reverse, ← List.filterMap_reverse,
    List.find?_filterMap]

/-- The last result of a search is that of an item behind which there is none. -/
lemma findSome?_reverse_eq_some_iff {f : α → Option β} {b : β} :
    xs.reverse.findSome? f = some b ↔ ∃ before x after, xs = before ++ x :: after ∧
      f x = some b ∧ ∀ later ∈ after, f later = none := by
  rw [List.findSome?_eq_some_iff]
  constructor
  · rintro ⟨after, x, before, hsplit, hx, hafter⟩
    refine ⟨before.reverse, x, after.reverse, ?_, hx, fun later hlater => ?_⟩
    · rw [← List.reverse_reverse xs, hsplit]
      simp
    · exact hafter later (List.mem_reverse.mp hlater)
  · rintro ⟨before, x, after, rfl, hx, hafter⟩
    refine ⟨after.reverse, x, before.reverse, by simp, hx, fun later hlater => ?_⟩
    exact hafter later (List.mem_reverse.mp hlater)

/-- In a list sorted by a key, the last match has the greatest key of all matches. -/
lemma findRev?_greatest {key : α → String} (hsorted : xs.Pairwise fun a b => key a ≤ key b)
    (h : xs.findRev? p = some x) {y : α} (hy : y ∈ xs) (hpy : p y) : key y ≤ key x := by
  rw [List.findRev?_eq_find?_reverse, List.find?_eq_some_iff_append] at h
  obtain ⟨-, after, before, hsplit, hafter⟩ := h
  have hxs : xs = before.reverse ++ x :: after.reverse := by
    have h := congrArg List.reverse hsplit
    simpa using h
  subst hxs
  rcases List.mem_append.mp hy with hy | hy
  · exact (List.pairwise_append.mp hsorted).2.2 y hy x List.mem_cons_self
  · rcases List.mem_cons.mp hy with rfl | hy
    · exact String.le_refl _
    · have hno := hafter y (List.mem_reverse.mp hy)
      simp [hpy] at hno

lemma find?_eq_some_of_unique (hx : x ∈ xs) (hpx : p x) (hunique : ∀ y ∈ xs, p y → y = x) :
    xs.find? p = some x := by
  cases h : xs.find? p with
  | none => exact absurd hpx (List.find?_eq_none.mp h x hx)
  | some y => rw [hunique y (List.mem_of_find?_eq_some h) (List.find?_some h)]

lemma findRev?_eq_some_of_unique (hx : x ∈ xs) (hpx : p x) (hunique : ∀ y ∈ xs, p y → y = x) :
    xs.findRev? p = some x := by
  rw [List.findRev?_eq_find?_reverse]
  exact find?_eq_some_of_unique (List.mem_reverse.mpr hx) hpx
    (fun y hy => hunique y (List.mem_reverse.mp hy))

end LastMatch

theorem get?_ofList (pairs : List (String × α)) (key : String) :
    (Table.ofList pairs).get? key = (pairs.findRev? fun pair => pair.1 = key).map Prod.snd := by
  unfold Table.ofList
  induction pairs using List.reverseRecOn with
  | nil => rfl
  | append_singleton pairs pair ih =>
    rw [List.foldl_append, findRev?_concat]
    simp only [List.foldl_cons, List.foldl_nil, Table.get?_insert, ih]
    by_cases h : pair.1 = key
    · simp [h]
    · simp [h, Ne.symm h]

end UpgradeAudit.Proofs
