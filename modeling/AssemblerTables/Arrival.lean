/-
Lists that hold one element per key, in the order in which the keys first arrived.

`put` is the only way in: an element whose key is new goes to the end, and one
whose key is there already takes the place of the earlier element.
-/

namespace AssemblerTables
namespace Arrival

variable {α κ : Type} [DecidableEq κ]

/-- Puts an element into the list, over the one with the same key if there is one. -/
def put (key : α → κ) (x : α) : List α → List α
  | [] => [x]
  | y :: rest => if key y = key x then x :: rest else y :: put key x rest

def ofList (key : α → κ) (xs : List α) : List α :=
  xs.foldl (fun l x => put key x l) []

/-- A key is there after a `put` if it was there before or is the new one. -/
theorem mem_keys_put {key : α → κ} {x : α} {l : List α} {k : κ} :
    k ∈ (put key x l).map key ↔ k ∈ l.map key ∨ k = key x := by
  induction l with
  | nil => simp [put]
  | cons y rest ih =>
      by_cases h : key y = key x
      · simp only [put, h, if_true, List.map_cons, List.mem_cons]
        exact ⟨fun hk => hk.elim .inr fun hr => .inl (.inr hr),
          fun hk => hk.elim (fun hl => hl) .inl⟩
      · simp only [put, h, if_false, List.map_cons, List.mem_cons, ih]
        exact ⟨fun hk => hk.elim (fun e => .inl (.inl e)) fun hr => hr.elim
            (fun hm => .inl (.inr hm)) .inr,
          fun hk => hk.elim (fun hl => hl.elim .inl fun hm => .inr (.inl hm))
            fun e => .inr (.inr e)⟩

theorem nodup_keys_put {key : α → κ} {x : α} {l : List α} (h : (l.map key).Nodup) :
    ((put key x l).map key).Nodup := by
  induction l with
  | nil => simp [put]
  | cons y rest ih =>
      rw [List.map_cons, List.nodup_cons] at h
      by_cases hy : key y = key x
      · simp only [put, hy, if_true, List.map_cons]
        exact List.nodup_cons.mpr ⟨hy ▸ h.1, h.2⟩
      · simp only [put, hy, if_false, List.map_cons]
        refine List.nodup_cons.mpr ⟨fun hmem => ?_, ih h.2⟩
        exact (mem_keys_put.mp hmem).elim h.1 hy

theorem nodup_keys_ofList (key : α → κ) (xs : List α) : ((ofList key xs).map key).Nodup := by
  have step : ∀ (xs l : List α), (l.map key).Nodup →
      ((xs.foldl (fun l x => put key x l) l).map key).Nodup := by
    intro xs
    induction xs with
    | nil => exact fun _ h => h
    | cons x rest ih => exact fun l h => ih (put key x l) (nodup_keys_put h)
  exact step xs [] List.nodup_nil

end Arrival
end AssemblerTables
