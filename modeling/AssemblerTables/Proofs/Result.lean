/-
Stages that can fail, taken apart.

A chain of stages gives a result when every stage does, and a stage run along a list
gives the list of the single results.  Where it fails, the fault is that of the first
element at which it does.
-/
import Mathlib.Data.List.Forall2

namespace AssemblerTables
namespace Result

variable {ε ε' α β : Type}

theorem bind_eq_ok {x : Except ε α} {f : α → Except ε β} {b : β} :
    (x >>= f) = .ok b ↔ ∃ a, x = .ok a ∧ f a = .ok b := by
  cases x with
  | error e => simp [bind, Except.bind]
  | ok a => simp [bind, Except.bind]

theorem bind_eq_error {x : Except ε α} {f : α → Except ε β} {e : ε} :
    (x >>= f) = .error e ↔ x = .error e ∨ ∃ a, x = .ok a ∧ f a = .error e := by
  cases x with
  | error d => simp [bind, Except.bind]
  | ok a => simp [bind, Except.bind]

/-- A stage after which the result is known, if there is one. -/
theorem bind_pure_eq_ok {x : Except ε α} {f : α → β} {b b' : β}
    (h : ∀ a, x = .ok a → f a = b) :
    (x >>= fun a => pure (f a)) = .ok b' ↔ (∃ a, x = .ok a) ∧ b' = b := by
  cases x with
  | error e => exact iff_of_false (fun h => by cases h) fun h => by cases h.1.choose_spec
  | ok a =>
      have hb : f a = b := h a rfl
      show Except.ok (f a) = .ok b' ↔ _
      rw [Except.ok.injEq, hb]
      exact ⟨fun h => ⟨⟨a, rfl⟩, h.symm⟩, fun h => h.2.symm⟩

theorem map_eq_ok {x : Except ε α} {f : α → β} {b : β} :
    x.map f = .ok b ↔ ∃ a, x = .ok a ∧ f a = b := by
  cases x with
  | error e => simp [Except.map]
  | ok a => simp [Except.map]

theorem map_eq_error {x : Except ε α} {f : α → β} {e : ε} :
    x.map f = .error e ↔ x = .error e := by
  cases x with
  | error d => simp [Except.map]
  | ok a => simp [Except.map]

theorem mapError_eq_ok {x : Except ε α} {f : ε → ε'} {a : α} :
    x.mapError f = .ok a ↔ x = .ok a := by
  cases x with
  | error e => exact iff_of_false (fun h => by cases h) (fun h => by cases h)
  | ok b =>
      show Except.ok b = .ok a ↔ Except.ok b = .ok a
      rw [Except.ok.injEq, Except.ok.injEq]

theorem mapError_eq_error {x : Except ε α} {f : ε → ε'} {e' : ε'} :
    x.mapError f = .error e' ↔ ∃ e, x = .error e ∧ f e = e' := by
  cases x with
  | error e =>
      show Except.error (f e) = .error e' ↔ _
      simp
  | ok a => exact iff_of_false (fun h => by cases h) (fun ⟨_, h, _⟩ => by cases h)

/-- What gives no result gives a fault. -/
theorem exists_error {x : Except ε α} (h : ¬ ∃ a, x = .ok a) : ∃ e, x = .error e := by
  cases x with
  | error e => exact ⟨e, rfl⟩
  | ok a => exact absurd ⟨a, rfl⟩ h

theorem toOption_eq_some {x : Except ε α} {a : α} : x.toOption = some a ↔ x = .ok a := by
  cases x with
  | error e => simp [Except.toOption]
  | ok b => simp [Except.toOption]

/-- A stage run along a list gives the results that it gives of the elements, in order. -/
theorem mapM_eq_ok {f : α → Except ε β} {xs : List α} {ys : List β} :
    xs.mapM f = .ok ys ↔ List.Forall₂ (fun x y => f x = .ok y) xs ys := by
  induction xs generalizing ys with
  | nil =>
      show Except.ok [] = .ok ys ↔ _
      rw [List.forall₂_nil_left_iff, Except.ok.injEq, eq_comm]
  | cons x rest ih =>
      rw [List.mapM_cons, bind_eq_ok]
      constructor
      · intro ⟨y, hy, h⟩
        obtain ⟨zs, hzs, h⟩ := bind_eq_ok.mp h
        cases h
        exact .cons hy (ih.mp hzs)
      · intro h
        cases h with
        | cons hy hrest => exact ⟨_, hy, by rw [ih.mpr hrest]; rfl⟩

theorem exists_of_forall₂ {R : α → β → Prop} {xs : List α} {ys : List β}
    (h : List.Forall₂ R xs ys) : ∀ x ∈ xs, ∃ y, R x y := by
  induction h with
  | nil => exact fun x hx => absurd hx List.not_mem_nil
  | cons hy _ ih => exact List.forall_mem_cons.mpr ⟨⟨_, hy⟩, ih⟩

theorem exists_forall₂ {R : α → β → Prop} {xs : List α} (h : ∀ x ∈ xs, ∃ y, R x y) :
    ∃ ys, List.Forall₂ R xs ys := by
  induction xs with
  | nil => exact ⟨[], .nil⟩
  | cons x rest ih =>
      obtain ⟨y, hy⟩ := h x List.mem_cons_self
      obtain ⟨ys, hys⟩ := ih fun a ha => h a (List.mem_cons_of_mem _ ha)
      exact ⟨y :: ys, .cons hy hys⟩

theorem exists_of_mapM {f : α → Except ε β} {xs : List α} {ys : List β}
    (h : xs.mapM f = .ok ys) : ∀ x ∈ xs, ∃ y, f x = .ok y :=
  exists_of_forall₂ (mapM_eq_ok.mp h)

theorem mapM_eq_map {f : α → Except ε β} {g : α → β} {xs : List α}
    (h : ∀ x ∈ xs, f x = .ok (g x)) : xs.mapM f = .ok (xs.map g) := by
  rw [mapM_eq_ok, List.forall₂_map_right_iff, List.forall₂_same]
  exact h

/-- Where a stage always has a result, its results can be collected without the failures. -/
theorem mapM_eq_filterMap {f : α → Except ε β} {xs : List α}
    (h : ∀ x ∈ xs, ∃ y, f x = .ok y) :
    xs.mapM f = .ok (xs.filterMap fun x => (f x).toOption) := by
  induction xs with
  | nil => rfl
  | cons x rest ih =>
      obtain ⟨y, hy⟩ := h x List.mem_cons_self
      have hrest := ih fun a ha => h a (List.mem_cons_of_mem _ ha)
      rw [List.mapM_cons, List.filterMap_cons, hrest, hy]
      rfl

theorem length_filterMap_toOption {f : α → Except ε β} {xs : List α}
    (h : ∀ x ∈ xs, ∃ y, f x = .ok y) :
    (xs.filterMap fun x => (f x).toOption).length = xs.length := by
  induction xs with
  | nil => rfl
  | cons x rest ih =>
      obtain ⟨y, hy⟩ := h x List.mem_cons_self
      have hrest := ih fun a ha => h a (List.mem_cons_of_mem _ ha)
      rw [List.filterMap_cons, hy]
      show (y :: rest.filterMap fun x => (f x).toOption).length = _
      rw [List.length_cons, hrest, List.length_cons]

/-- What two elements share that agree in one respect, two lists share that agree in it
place by place. -/
theorem map_eq_map_of {γ : Type} {f : α → β} {g : α → γ} {xs ys : List α}
    (h : ∀ x ∈ xs, ∀ y ∈ ys, f x = f y → g x = g y) (hf : xs.map f = ys.map f) :
    xs.map g = ys.map g := by
  induction xs generalizing ys with
  | nil =>
      rw [List.map_nil, eq_comm, List.map_eq_nil_iff] at hf
      rw [hf]
  | cons x rest ih =>
      cases ys with
      | nil => cases hf
      | cons y others =>
          rw [List.map_cons, List.map_cons, List.cons.injEq] at hf
          rw [List.map_cons, List.map_cons, h x List.mem_cons_self y List.mem_cons_self hf.1,
            ih (fun a ha b hb => h a (List.mem_cons_of_mem _ ha) b (List.mem_cons_of_mem _ hb))
              hf.2]

/-! ## The first failure -/

/-- Is `x` the first of the elements at which the stage fails, and `e` its fault? -/
def FailsFirst (f : α → Except ε β) (xs : List α) (x : α) (e : ε) : Prop :=
  ∃ before after, xs = before ++ x :: after ∧ (∀ y ∈ before, ∃ b, f y = .ok b) ∧ f x = .error e

section FailsFirst

variable {f : α → Except ε β} {xs : List α} {x : α} {e : ε}

theorem FailsFirst.mem (h : FailsFirst f xs x e) : x ∈ xs := by
  obtain ⟨before, after, rfl, -, -⟩ := h
  simp

theorem FailsFirst.eq_error (h : FailsFirst f xs x e) : f x = .error e := by
  obtain ⟨-, -, -, -, hx⟩ := h
  exact hx

/-- Elements at which the stage gives results may stand before, and any behind. -/
theorem FailsFirst.between {first : List α} (hfirst : ∀ y ∈ first, ∃ b, f y = .ok b)
    (h : FailsFirst f xs x e) (last : List α) : FailsFirst f (first ++ xs ++ last) x e := by
  obtain ⟨before, after, rfl, hbefore, hx⟩ := h
  refine ⟨first ++ before, after ++ last, by simp, fun y hy => ?_, hx⟩
  rcases List.mem_append.mp hy with hy | hy
  · exact hfirst y hy
  · exact hbefore y hy

theorem exists_failsFirst (h : xs.mapM f = .error e) : ∃ x, FailsFirst f xs x e := by
  induction xs with
  | nil => cases h
  | cons y rest ih =>
      rw [List.mapM_cons, bind_eq_error] at h
      rcases h with hy | ⟨b, hy, h⟩
      · exact ⟨y, [], rest, rfl, fun z hz => absurd hz List.not_mem_nil, hy⟩
      · rcases bind_eq_error.mp h with hrest | ⟨bs, -, h⟩
        · obtain ⟨x, hx⟩ := ih hrest
          have hfirst : ∀ z ∈ [y], ∃ b, f z = .ok b := fun z hz => by
            rw [List.mem_singleton.mp hz]
            exact ⟨b, hy⟩
          have hlift := hx.between hfirst []
          rw [List.append_nil] at hlift
          exact ⟨x, hlift⟩
        · cases h

/-- A stage that succeeds without a property fails at the first element that has it. -/
theorem mapM_of_find? {p : α → Bool} (hok : ∀ y ∈ xs, p y = false → ∃ b, f y = .ok b)
    (h : xs.find? p = some x) (hx : f x = .error e) : xs.mapM f = .error e := by
  induction xs with
  | nil => cases h
  | cons y rest ih =>
      rw [List.find?_cons] at h
      rw [List.mapM_cons]
      cases hy : p y with
      | true =>
          rw [hy] at h
          rw [Option.some.inj h, hx]
          rfl
      | false =>
          rw [hy] at h
          obtain ⟨b, hb⟩ := hok y List.mem_cons_self hy
          rw [hb]
          show (rest.mapM f >>= _) = _
          rw [ih (fun z hz => hok z (List.mem_cons_of_mem _ hz)) h]
          rfl

/-- A stage run for its faults alone fails as the one that keeps the results. -/
theorem forM_eq_discard (f : α → Except ε PUnit) (xs : List α) :
    xs.forM f = discard (xs.mapM f) := by
  induction xs with
  | nil => rfl
  | cons y rest ih =>
      rw [List.mapM_cons]
      show (f y >>= fun _ => rest.forM f) = _
      rw [ih]
      cases f y with
      | error d => rfl
      | ok u => cases rest.mapM f <;> rfl

theorem discard_eq_error {x : Except ε α} {e : ε} : discard x = .error e ↔ x = .error e := by
  cases x with
  | error d =>
      show Except.error d = .error e ↔ _
      rw [Except.error.injEq, Except.error.injEq]
  | ok a => exact iff_of_false (fun h => by cases h) (fun h => by cases h)

end FailsFirst

end Result
end AssemblerTables
