/-
**Lists handled one item after the other, up to the first failure.**

* `bind_eq_ok_iff`, `bind_eq_error_iff`: what follows gets what came before, and either may fail;
* `mapM_eq_ok_iff`: the results are those of the items, in order;
* `mapM_eq_error_iff`, `exists_mapM_ok`: a failure is that of the first item that fails, so there is
  none if no item fails;
* `foldlM_keeps`, `foldlM_eq_ok_iff`: what every step keeps, a run of steps keeps, and what decides
  on every step decides on the run;
* `forall₂_iff_getElem?`, `forall₂_concat_left_iff`: lists that are related item by item;
* `forall₂_trans`, `forall₂_insertIdx`, `forall₂_eraseIdx`: such lists in a row, and with an item
  more or less.
-/

import Mathlib.Data.List.Forall2

namespace SceneScript.Traversal

variable {ε α β : Type} {f : α → Except ε β}

theorem bind_eq_ok_iff {first : Except ε α} {result : β} :
    first >>= f = .ok result ↔ ∃ value, first = .ok value ∧ f value = .ok result := by
  cases first with
  | error cause =>
    constructor
    · intro impossible
      cases impossible
    · rintro ⟨_, impossible, _⟩
      cases impossible
  | ok value =>
    constructor
    · intro accepted
      exact ⟨value, rfl, accepted⟩
    · rintro ⟨_, same, accepted⟩
      cases same
      exact accepted

theorem bind_eq_error_iff {first : Except ε α} {cause : ε} :
    first >>= f = .error cause ↔
      first = .error cause ∨ ∃ value, first = .ok value ∧ f value = .error cause := by
  cases first with
  | error own =>
    constructor
    · intro failed
      cases failed
      exact .inl rfl
    · rintro (same | ⟨_, impossible, _⟩)
      · cases same
        rfl
      · cases impossible
  | ok value =>
    constructor
    · intro failed
      exact .inr ⟨value, rfl, failed⟩
    · rintro (impossible | ⟨_, same, failed⟩)
      · cases impossible
      · cases same
        exact failed

theorem mapM_eq_ok_iff {items : List α} {results : List β} :
    items.mapM f = .ok results ↔
      List.Forall₂ (fun item result => f item = .ok result) items results := by
  induction items generalizing results with
  | nil =>
    rw [List.mapM_nil, List.forall₂_nil_left_iff]
    constructor
    · intro same
      cases same
      rfl
    · rintro rfl
      rfl
  | cons item items ih =>
    simp only [List.mapM_cons, bind_eq_ok_iff, ih]
    constructor
    · rintro ⟨result, first, others, rest, same⟩
      cases same
      exact .cons first rest
    · intro related
      cases related with
      | cons first rest => exact ⟨_, first, _, rest, rfl⟩

/-- **A failure is that of the first item that fails.** -/
theorem mapM_eq_error_iff {items : List α} {cause : ε} :
    items.mapM f = .error cause ↔
      ∃ (index : Nat) (item : α), items[index]? = some item ∧ f item = .error cause ∧
        ∀ earlier < index, ∀ other, items[earlier]? = some other →
          ∃ result, f other = .ok result := by
  induction items with
  | nil =>
    refine iff_of_false (fun impossible => ?_) ?_
    · cases impossible
    · rintro ⟨_, _, found, _⟩
      cases found
  | cons item items ih =>
    have rest : (item :: items).mapM f = .error cause ↔
        f item = .error cause ∨ (∃ result, f item = .ok result) ∧ items.mapM f = .error cause := by
      rw [List.mapM_cons, bind_eq_error_iff]
      refine or_congr_right ?_
      simp only [bind_eq_error_iff, ← exists_and_right]
      refine exists_congr fun result => and_congr_right fun _ => or_iff_left ?_
      rintro ⟨_, _, impossible⟩
      cases impossible
    rw [rest, ih]
    constructor
    · rintro (failed | ⟨accepted, index, found, listed, failed, before⟩)
      · exact ⟨0, item, rfl, failed, fun earlier before => absurd before (Nat.not_lt_zero _)⟩
      · refine ⟨index + 1, found, listed, failed, fun earlier inside other located => ?_⟩
        cases earlier with
        | zero =>
          cases located
          exact accepted
        | succ earlier => exact before earlier (Nat.lt_of_succ_lt_succ inside) other located
    · rintro ⟨index, found, listed, failed, before⟩
      cases index with
      | zero =>
        cases listed
        exact .inl failed
      | succ index =>
        refine .inr ⟨before 0 (Nat.succ_pos _) item rfl, index, found, listed, failed, ?_⟩
        intro earlier inside other located
        exact before (earlier + 1) (Nat.succ_lt_succ inside) other located

theorem exists_of_mapM_error {items : List α} {cause : ε} (failed : items.mapM f = .error cause) :
    ∃ item ∈ items, f item = .error cause := by
  obtain ⟨_, item, listed, refused, _⟩ := mapM_eq_error_iff.mp failed
  exact ⟨item, List.mem_of_getElem? listed, refused⟩

theorem exists_mapM_ok {items : List α} (each : ∀ item ∈ items, ∃ result, f item = .ok result) :
    ∃ results, items.mapM f = .ok results := by
  cases outcome : items.mapM f with
  | ok results => exact ⟨results, rfl⟩
  | error cause =>
    obtain ⟨item, member, failed⟩ := exists_of_mapM_error outcome
    obtain ⟨result, accepted⟩ := each item member
    rw [accepted] at failed
    cases failed

/-- What every accepted step keeps, a run of accepted steps keeps. -/
theorem foldlM_keeps {step : β → α → Except ε β} (kept : β → Prop) {items : List α}
    (each : ∀ {state changed : β} {item : α}, item ∈ items → step state item = .ok changed →
      kept state → kept changed)
    {start result : β} (accepted : items.foldlM step start = .ok result) (before : kept start) :
    kept result := by
  induction items generalizing start with
  | nil =>
    cases accepted
    exact before
  | cons item items ih =>
    rw [List.foldlM_cons] at accepted
    obtain ⟨next, first, rest⟩ := bind_eq_ok_iff.mp accepted
    exact ih (fun member => each (List.mem_cons_of_mem _ member)) rest
      (each List.mem_cons_self first before)

/-- If a step appends its item and is accepted when the outcome is valid, then a run of steps
appends all items, and is accepted when its outcome is valid. -/
theorem foldlM_eq_ok_iff {step : β → α → Except ε β} (append : β → List α → β) (valid : β → Prop)
    (nil : ∀ state : β, append state [] = state)
    (cons : ∀ (state : β) (item : α) (rest : List α),
      append (append state [item]) rest = append state (item :: rest))
    (earlier : ∀ (state : β) (item : α) (rest : List α), valid (append state (item :: rest)) →
      valid (append state [item]))
    (each : ∀ {state changed : β} {item : α}, valid state →
      (step state item = .ok changed ↔ changed = append state [item] ∧ valid changed))
    {items : List α} {start result : β} (before : valid start) :
    items.foldlM step start = .ok result ↔ result = append start items ∧ valid result := by
  induction items generalizing start with
  | nil =>
    rw [List.foldlM_nil, nil]
    constructor
    · intro same
      cases same
      exact ⟨rfl, before⟩
    · rintro ⟨rfl, _⟩
      rfl
  | cons item rest ih =>
    rw [List.foldlM_cons, bind_eq_ok_iff, ← cons]
    constructor
    · rintro ⟨next, first, accepted⟩
      obtain ⟨rfl, kept⟩ := (each before).mp first
      exact (ih kept).mp accepted
    · rintro ⟨same, kept⟩
      have next : valid (append start [item]) := by
        refine earlier start item rest ?_
        rw [← cons, ← same]
        exact kept
      exact ⟨_, (each before).mpr ⟨rfl, next⟩, (ih next).mpr ⟨same, kept⟩⟩

/-- Two related lists have the same items at the same places. -/
theorem forall₂_iff_getElem? {related : α → β → Prop} {first : List α} {second : List β} :
    List.Forall₂ related first second ↔
      first.length = second.length ∧
        ∀ (index : Nat) (left : α) (right : β), first[index]? = some left →
          second[index]? = some right → related left right := by
  rw [List.forall₂_iff_get]
  refine and_congr_right fun _ => ⟨fun each index left right found found' => ?_,
    fun each index inside inside' => ?_⟩
  · obtain ⟨inside, rfl⟩ := List.getElem?_eq_some_iff.mp found
    obtain ⟨inside', rfl⟩ := List.getElem?_eq_some_iff.mp found'
    exact each index inside inside'
  · exact each index _ _ (List.getElem?_eq_getElem inside) (List.getElem?_eq_getElem inside')

/-- A list with an item behind it is related to lists with a related item behind them. -/
theorem forall₂_concat_left_iff {related : α → β → Prop} {first : List α} {last : α}
    {others : List β} :
    List.Forall₂ related (first ++ [last]) others ↔
      ∃ front back, others = front ++ [back] ∧ List.Forall₂ related first front ∧
        related last back := by
  constructor
  · intro each
    have front := List.forall₂_take first.length each
    have back := List.forall₂_drop first.length each
    rw [List.take_left] at front
    rw [List.drop_left] at back
    obtain ⟨item, rest, own, none, single⟩ := List.forall₂_cons_left_iff.mp back
    rw [List.forall₂_nil_left_iff.mp none] at single
    refine ⟨_, item, ?_, front, own⟩
    rw [← single, List.take_append_drop]
  · rintro ⟨front, back, rfl, each, own⟩
    exact List.rel_append each (.cons own .nil)

theorem forall₂_trans {γ : Type} {related : α → β → Prop} {related' : β → γ → Prop}
    {joined : α → γ → Prop} {first : List α} {second : List β} {third : List γ}
    (each : List.Forall₂ related first second) (each' : List.Forall₂ related' second third)
    (join : ∀ left middle right, related left middle → related' middle right → joined left right) :
    List.Forall₂ joined first third := by
  induction each generalizing third with
  | nil =>
    rw [List.forall₂_nil_left_iff.mp each']
    exact .nil
  | cons own _ ih =>
    obtain ⟨_, _, own', rest', rfl⟩ := List.forall₂_cons_left_iff.mp each'
    exact .cons (join _ _ _ own own') (ih rest')

theorem forall₂_insertIdx {related : α → β → Prop} {first : List α} {second : List β} {left : α}
    {right : β} (each : List.Forall₂ related first second) (own : related left right)
    (index : Nat) :
    List.Forall₂ related (first.insertIdx index left) (second.insertIdx index right) := by
  induction each generalizing index with
  | nil =>
    cases index with
    | zero => exact .cons own .nil
    | succ index => exact .nil
  | cons head rest ih =>
    cases index with
    | zero => exact .cons own (.cons head rest)
    | succ index => exact .cons head (ih index)

theorem forall₂_eraseIdx {related : α → β → Prop} {first : List α} {second : List β}
    (each : List.Forall₂ related first second) (index : Nat) :
    List.Forall₂ related (first.eraseIdx index) (second.eraseIdx index) := by
  rw [List.eraseIdx_eq_take_drop_succ, List.eraseIdx_eq_take_drop_succ]
  exact List.rel_append (List.forall₂_take index each) (List.forall₂_drop (index + 1) each)

end SceneScript.Traversal
