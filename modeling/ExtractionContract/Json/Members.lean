/-!
# Members in order

A list of pairs in which each key stands once, in the order in which the keys were first
given. Giving a key again replaces its value and keeps its place.

* `put`: gives a key a value.
* `collapse`: the members that a list of pairs with repeated keys amounts to.
* `lookup_put_self`, `keys_put`: the two laws of `put`.
-/

namespace ExtractionContract

namespace Members

variable {κ α : Type} [DecidableEq κ]

/-- Gives `k` the value `v`, in its place if it has one and at the end if not. -/
def put (k : κ) (v : α) : List (κ × α) → List (κ × α)
  | [] => [(k, v)]
  | m :: rest => if m.1 = k then (k, v) :: rest else m :: put k v rest

/-- Gives each key of a list its value, one after the other. -/
def putAll (members : List (κ × α)) (pairs : List (κ × α)) : List (κ × α) :=
  pairs.foldl (fun ms p => put p.1 p.2 ms) members

/-- The members that a list of pairs amounts to: for each key its first place and its last
value. -/
def collapse (pairs : List (κ × α)) : List (κ × α) :=
  putAll [] pairs

/-- The keys, in order. -/
def keys (members : List (κ × α)) : List κ :=
  members.map Prod.fst

/-- The value of a key just given is the one given. -/
theorem lookup_put_self (k : κ) (v : α) (ms : List (κ × α)) :
    (put k v ms).lookup k = some v := by
  induction ms with
  | nil => simp [put]
  | cons m rest ih =>
    by_cases h : m.1 = k
    · simp [put, h]
    · have h' : (k == m.1) = false := beq_false_of_ne fun e => h e.symm
      obtain ⟨_, _⟩ := m
      simp [put, h, List.lookup_cons, h', ih]

/-- A key keeps its place when it is given again, and comes last when it is new. -/
theorem keys_put (k : κ) (v : α) (ms : List (κ × α)) :
    keys (put k v ms) = if k ∈ keys ms then keys ms else keys ms ++ [k] := by
  induction ms with
  | nil => simp [put, keys]
  | cons m rest ih =>
    by_cases h : m.1 = k
    · simp [put, keys, h]
    · have h' : ¬k = m.1 := fun e => h e.symm
      simp only [keys] at ih
      by_cases hk : k ∈ rest.map Prod.fst <;> simp_all [put, keys]

/-- Keys stay distinct when one is given. -/
theorem nodup_keys_put (k : κ) (v : α) (ms : List (κ × α)) (h : (keys ms).Nodup) :
    (keys (put k v ms)).Nodup := by
  rw [keys_put]
  split
  · exact h
  · rename_i hk
    rw [List.nodup_append]
    refine ⟨h, by simp, ?_⟩
    intro a ha b hb e
    simp only [List.mem_singleton] at hb
    exact hk (hb ▸ e ▸ ha)

end Members

end ExtractionContract
