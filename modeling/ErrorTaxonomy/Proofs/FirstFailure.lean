import Mathlib.Data.List.Forall2

/-!
# First failures

A sequence of computations that may fail runs up to the first failure.  It ends
in a list of values if and only if each computation ends in its value, and in an
error if and only if some computation fails with it after all before have
succeeded.
-/

namespace ErrorTaxonomy

variable {ε α β γ : Type}

theorem forall_mem_or_first (p : α → Prop) (list : List α) :
    (∀ a ∈ list, p a) ∨
      ∃ before a after, list = before ++ a :: after ∧ (∀ b ∈ before, p b) ∧ ¬ p a := by
  induction list with
  | nil => exact .inl (by simp)
  | cons a rest ih =>
      by_cases ha : p a
      · rcases ih with hrest | ⟨before, b, after, rfl, hbefore, hb⟩
        · exact .inl (List.forall_mem_cons.mpr ⟨ha, hrest⟩)
        · refine .inr ⟨a :: before, b, after, rfl, ?_, hb⟩
          exact List.forall_mem_cons.mpr ⟨ha, hbefore⟩
      · exact .inr ⟨[], a, rest, rfl, by simp, ha⟩

theorem exists_forall₂_iff {r : α → β → Prop} {list : List α} :
    (∃ values, List.Forall₂ r list values) ↔ ∀ a ∈ list, ∃ value, r a value := by
  induction list with
  | nil => simp
  | cons a rest ih =>
      rw [List.forall_mem_cons, ← ih]
      constructor
      · rintro ⟨_, hvalues⟩
        obtain ⟨value, others, hvalue, hothers, rfl⟩ := List.forall₂_cons_left_iff.mp hvalues
        exact ⟨⟨value, hvalue⟩, others, hothers⟩
      · rintro ⟨⟨value, hvalue⟩, others, hothers⟩
        exact ⟨value :: others, .cons hvalue hothers⟩

theorem map_eq_map_of_forall₂ {r : α → β → Prop} {f : α → γ} {g : β → γ} {list : List α}
    {values : List β} (heq : ∀ a value, r a value → f a = g value)
    (hvalues : List.Forall₂ r list values) : list.map f = values.map g := by
  induction hvalues with
  | nil => rfl
  | cons hvalue _ ih => rw [List.map_cons, List.map_cons, heq _ _ hvalue, ih]

theorem forall₂_comp {r : α → β → Prop} {s : β → γ → Prop} {t : α → γ → Prop}
    {list : List α} {values : List β} {results : List γ}
    (hvalues : List.Forall₂ r list values) (hresults : List.Forall₂ s values results)
    (hcomp : ∀ a value result, r a value → s value result → t a result) :
    List.Forall₂ t list results := by
  induction hvalues generalizing results with
  | nil =>
      cases hresults
      exact .nil
  | cons hvalue _ ih =>
      cases hresults with
      | cons hresult hrest => exact .cons (hcomp _ _ _ hvalue hresult) (ih hrest)

theorem forall₂_append_cons_left {r : α → β → Prop} {before after : List α} {a : α}
    {values : List β} (hvalues : List.Forall₂ r (before ++ a :: after) values) :
    ∃ earlier value later, values = earlier ++ value :: later ∧
      List.Forall₂ r before earlier ∧ r a value := by
  induction before generalizing values with
  | nil =>
      cases hvalues with
      | cons hvalue _ => exact ⟨[], _, _, rfl, .nil, hvalue⟩
  | cons first before ih =>
      cases hvalues with
      | cons hfirst hrest =>
          rcases ih hrest with ⟨earlier, value, later, rfl, hearlier, hvalue⟩
          exact ⟨_ :: earlier, value, later, rfl, .cons hfirst hearlier, hvalue⟩

theorem forall₂_append_cons_right {r : α → β → Prop} {before after : List β} {value : β}
    {list : List α} (hlist : List.Forall₂ r list (before ++ value :: after)) :
    ∃ earlier a later, list = earlier ++ a :: later ∧
      List.Forall₂ r earlier before ∧ r a value := by
  rcases forall₂_append_cons_left hlist.flip with ⟨earlier, a, later, hsplit, hearlier, ha⟩
  exact ⟨earlier, a, later, hsplit, hearlier.flip, ha⟩

theorem exists_mem_left_of_forall₂ {r : α → β → Prop} {list : List α} {values : List β}
    (hvalues : List.Forall₂ r list values) {value : β} (hmem : value ∈ values) :
    ∃ a ∈ list, r a value := by
  obtain ⟨before, after, rfl⟩ := List.append_of_mem hmem
  obtain ⟨earlier, a, later, rfl, -, ha⟩ := forall₂_append_cons_right hvalues
  exact ⟨a, List.mem_append_right _ List.mem_cons_self, ha⟩

theorem exists_mem_right_of_forall₂ {r : α → β → Prop} {list : List α} {values : List β}
    (hvalues : List.Forall₂ r list values) {a : α} (hmem : a ∈ list) :
    ∃ value ∈ values, r a value :=
  exists_mem_left_of_forall₂ hvalues.flip hmem

/-- What is dropped from the list is dropped from the values. -/
theorem exists_sublist_forall₂ {r : α → β → Prop} {part list : List α} {values : List β}
    (hpart : part.Sublist list) (hvalues : List.Forall₂ r list values) :
    ∃ others, others.Sublist values ∧ List.Forall₂ r part others := by
  induction hpart generalizing values with
  | slnil =>
      cases hvalues
      exact ⟨[], .slnil, .nil⟩
  | cons _ _ ih =>
      cases hvalues with
      | cons _ hrest =>
          obtain ⟨others, hothers, hpart⟩ := ih hrest
          exact ⟨others, hothers.cons _, hpart⟩
  | cons_cons _ _ ih =>
      cases hvalues with
      | cons hvalue hrest =>
          obtain ⟨others, hothers, hpart⟩ := ih hrest
          exact ⟨_ :: others, hothers.cons_cons _, .cons hvalue hpart⟩

theorem ok_bind (a : α) (next : α → Except ε β) : (Except.ok a >>= next) = next a :=
  rfl

theorem bind_eq_ok_iff {first : Except ε α} {next : α → Except ε β} {value : β} :
    (first >>= next) = .ok value ↔ ∃ a, first = .ok a ∧ next a = .ok value := by
  cases first with
  | error error => simp [bind, Except.bind]
  | ok a => simp [bind, Except.bind]

theorem bind_eq_error_iff {first : Except ε α} {next : α → Except ε β} {error : ε} :
    (first >>= next) = .error error ↔
      first = .error error ∨ ∃ a, first = .ok a ∧ next a = .error error := by
  cases first with
  | error error => simp [bind, Except.bind]
  | ok a => simp [bind, Except.bind]

theorem mapError_eq_ok_iff {ε' : Type} {f : ε → ε'} {outcome : Except ε α} {value : α} :
    outcome.mapError f = .ok value ↔ outcome = .ok value := by
  cases outcome <;> simp [Except.mapError]

theorem mapError_eq_error_iff {ε' : Type} {f : ε → ε'} {outcome : Except ε α} {error : ε'} :
    outcome.mapError f = .error error ↔ ∃ cause, outcome = .error cause ∧ error = f cause := by
  cases outcome <;> simp [Except.mapError, eq_comm]

theorem mapM_eq_ok_iff {f : α → Except ε β} {list : List α} {values : List β} :
    list.mapM f = .ok values ↔
      List.Forall₂ (fun a value => f a = .ok value) list values := by
  induction list generalizing values with
  | nil =>
      rw [List.mapM_nil, List.forall₂_nil_left_iff]
      exact ⟨fun h => (Except.ok.inj h).symm, fun h => h ▸ rfl⟩
  | cons a rest ih =>
      rw [List.mapM_cons, bind_eq_ok_iff, List.forall₂_cons_left_iff]
      constructor
      · rintro ⟨value, hvalue, hrest⟩
        rcases bind_eq_ok_iff.mp hrest with ⟨others, hothers, heq⟩
        exact ⟨value, others, hvalue, ih.mp hothers, (Except.ok.inj heq).symm⟩
      · rintro ⟨value, others, hvalue, hothers, rfl⟩
        exact ⟨value, hvalue, bind_eq_ok_iff.mpr ⟨others, ih.mpr hothers, rfl⟩⟩

theorem mapM_eq_error_iff {f : α → Except ε β} {list : List α} {error : ε} :
    list.mapM f = .error error ↔
      ∃ before a after, list = before ++ a :: after ∧
        (∀ b ∈ before, ∃ value, f b = .ok value) ∧ f a = .error error := by
  induction list with
  | nil =>
      rw [List.mapM_nil]
      constructor
      · rintro ⟨⟩
      · rintro ⟨before, a, after, hlist, -⟩
        simp at hlist
  | cons a rest ih =>
      rw [List.mapM_cons, bind_eq_error_iff]
      constructor
      · rintro (hfirst | ⟨value, hvalue, hrest⟩)
        · exact ⟨[], a, rest, rfl, by simp, hfirst⟩
        · rcases bind_eq_error_iff.mp hrest with hrest | ⟨_, _, hnever⟩
          · rcases ih.mp hrest with ⟨before, b, after, rfl, hbefore, hb⟩
            refine ⟨a :: before, b, after, rfl, ?_, hb⟩
            exact List.forall_mem_cons.mpr ⟨⟨value, hvalue⟩, hbefore⟩
          · cases hnever
      · rintro ⟨before, b, after, hlist, hbefore, hb⟩
        cases before with
        | nil =>
            rcases List.cons.inj hlist with ⟨rfl, rfl⟩
            exact .inl hb
        | cons c before =>
            rcases List.cons.inj hlist with ⟨rfl, rfl⟩
            rcases List.forall_mem_cons.mp hbefore with ⟨⟨value, hvalue⟩, hbefore⟩
            refine .inr ⟨value, hvalue, bind_eq_error_iff.mpr (.inl ?_)⟩
            exact ih.mpr ⟨before, b, after, rfl, hbefore, hb⟩

theorem mapM_eq_some_iff {f : α → Option β} {list : List α} {values : List β} :
    list.mapM f = some values ↔
      List.Forall₂ (fun a value => f a = some value) list values := by
  induction list generalizing values with
  | nil => simp [List.forall₂_nil_left_iff, eq_comm]
  | cons a rest ih =>
      rw [List.mapM_cons, List.forall₂_cons_left_iff]
      simp only [Option.bind_eq_bind, Option.bind_eq_some_iff, ih, Option.pure_def,
        Option.some.injEq]
      constructor
      · rintro ⟨value, hvalue, others, hothers, rfl⟩
        exact ⟨value, others, hvalue, hothers, rfl⟩
      · rintro ⟨value, others, hvalue, hothers, rfl⟩
        exact ⟨value, hvalue, others, hothers, rfl⟩

end ErrorTaxonomy
