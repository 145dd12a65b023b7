import Mathlib.Data.Set.Finite.Lattice

/-!
# Python values shared by the modules

The exceptions the modelled functions raise (`PyError`), the insertion-ordered `dict` they build
(`Dict`, whose keys are pairwise distinct by construction), and the loop `while taken(x): x += 1`
that both `allocate_local_ports` and `_create_run` run (`searchUp`).  The loop gets a fuel bound;
`searchUp_spec` says a result is the first untaken value, and `searchUp_isSome_of_bound` that a
bound above which nothing is taken gives enough fuel.
-/

namespace Dstack

/-! ### Exceptions -/

/-- `error_detail(msg, code)` of the hub routers. -/
structure ErrorDetail where
  msg : String
  code : String
  deriving DecidableEq, Repr

/-- The `detail` of an `HTTPException`: one error detail, or a list of them. -/
inductive Detail where
  | one (d : ErrorDetail)
  | list (ds : List ErrorDetail)
  deriving DecidableEq, Repr

/-- FastAPI's `HTTPException(status_code, detail)`. -/
structure HTTPException where
  statusCode : Nat
  detail : Detail
  deriving DecidableEq, Repr

/-- The exceptions the modelled functions raise. -/
inductive PyError where
  | http (e : HTTPException)
  /-- `PortUsedError(msg)` of `allocate_local_ports`. -/
  | portUsed (msg : String)
  /-- `ValueError(msg)`; for `int(s)` on a string that is not an integer literal, `s`. -/
  | valueError (msg : String)
  /-- Reading a local variable that no assignment has bound. -/
  | unboundLocal (name : String)
  deriving DecidableEq, Repr

/-- `status.HTTP_400_BAD_REQUEST`. -/
def HTTP_400_BAD_REQUEST : Nat := 400

/-! ### Insertion-ordered dictionaries -/

/-- A Python `dict`: its items in insertion order, with pairwise distinct keys. -/
structure Dict (κ ν : Type) where
  entries : List (κ × ν)
  nodup : (entries.map Prod.fst).Nodup

namespace Dict

variable {κ ν : Type}

/-- `dict.keys()`. -/
def keys (d : Dict κ ν) : List κ := d.entries.map Prod.fst

/-- `{}`. -/
def empty : Dict κ ν := ⟨[], List.nodup_nil⟩

@[simp] theorem keys_empty : (empty : Dict κ ν).keys = [] := rfl

variable [DecidableEq κ]

/-- `d.get(k)`. -/
def get? (d : Dict κ ν) (k : κ) : Option ν := d.entries.lookup k

private theorem lookup_cons_eq (a k : κ) (b : ν) (l : List (κ × ν)) :
    ((a, b) :: l).lookup k = if k = a then some b else l.lookup k := by
  simp only [List.lookup_cons]
  split <;> simp_all

private theorem map_fst_setIn (l : List (κ × ν)) (k : κ) (v : ν) :
    (l.map fun e => if e.1 = k then (k, v) else e).map Prod.fst = l.map Prod.fst := by
  induction l with
  | nil => rfl
  | cons e l ih => by_cases h : e.1 = k <;> simp [h, ih]

/-- `d[k] = v`: an existing key keeps its place and takes the new value, a new key goes last. -/
def set (d : Dict κ ν) (k : κ) (v : ν) : Dict κ ν :=
  if h : k ∈ d.keys then
    ⟨d.entries.map (fun e => if e.1 = k then (k, v) else e), by
      rw [map_fst_setIn]; exact d.nodup⟩
  else
    ⟨d.entries ++ [(k, v)], by
      simpa [List.nodup_append, keys] using And.intro d.nodup h⟩

@[simp] theorem get?_empty (k : κ) : (empty : Dict κ ν).get? k = none := rfl

theorem keys_set (d : Dict κ ν) (k : κ) (v : ν) :
    (d.set k v).keys = if k ∈ d.keys then d.keys else d.keys ++ [k] := by
  unfold set
  split
  · exact map_fst_setIn _ _ _
  · simp [keys]

private theorem lookup_setIn_ne (l : List (κ × ν)) {k k' : κ} (v : ν) (h : k' ≠ k) :
    (l.map fun e => if e.1 = k then (k, v) else e).lookup k' = l.lookup k' := by
  induction l with
  | nil => rfl
  | cons e l ih =>
    obtain ⟨a, b⟩ := e
    by_cases hak : a = k
    · subst hak; simp [lookup_cons_eq, h, ih]
    · simp [lookup_cons_eq, hak, ih]

private theorem lookup_setIn_self (l : List (κ × ν)) {k : κ} (v : ν) (hk : k ∈ l.map Prod.fst) :
    (l.map fun e => if e.1 = k then (k, v) else e).lookup k = some v := by
  induction l with
  | nil => simp at hk
  | cons e l ih =>
    obtain ⟨a, b⟩ := e
    by_cases hak : a = k
    · subst hak; simp [lookup_cons_eq]
    · simp only [List.map_cons, hak, if_false, lookup_cons_eq, Ne.symm hak]
      exact ih (by simpa [Ne.symm hak] using hk)

private theorem lookup_eq_none_of_not_mem {l : List (κ × ν)} {k : κ} (h : k ∉ l.map Prod.fst) :
    l.lookup k = none := by
  simp only [List.lookup_eq_none_iff, bne_iff_ne, ne_eq]
  exact fun p hp he => h (he ▸ List.mem_map_of_mem _ hp)

@[simp] theorem get?_set (d : Dict κ ν) (k k' : κ) (v : ν) :
    (d.set k v).get? k' = if k' = k then some v else d.get? k' := by
  unfold set get?
  split
  · by_cases hk : k' = k
    · subst hk; simp [lookup_setIn_self _ _ ‹_›]
    · simp [lookup_setIn_ne _ _ hk, hk]
  · rw [List.lookup_append, lookup_cons_eq]
    by_cases hk : k' = k
    · subst hk; simp [lookup_eq_none_of_not_mem ‹_›]
    · cases d.entries.lookup k' <;> simp [hk]

/-- `for k, v in writes: d[k] = v` keeps the keys in the order of their first write. -/
theorem keys_foldl_set (writes : List (κ × ν)) (d : Dict κ ν) :
    (writes.foldl (fun d e => d.set e.1 e.2) d).keys =
      (writes.map Prod.fst).foldl (fun seen k => if k ∈ seen then seen else seen ++ [k]) d.keys := by
  induction writes generalizing d with
  | nil => rfl
  | cons e writes ih => rw [List.foldl_cons, ih, keys_set]; rfl

/-- `for k, v in writes: d[k] = v`: the last write to a key sets its value. -/
theorem get?_foldl_set (writes : List (κ × ν)) (d : Dict κ ν) (k : κ) :
    (writes.foldl (fun d e => d.set e.1 e.2) d).get? k = (writes.reverse.lookup k).or (d.get? k) := by
  induction writes generalizing d with
  | nil => rfl
  | cons e writes ih =>
    rw [List.foldl_cons, ih, get?_set, List.reverse_cons, List.lookup_append, Option.or_assoc]
    obtain ⟨a, b⟩ := e
    by_cases h : k = a <;> simp [h, lookup_cons_eq]

/-- With distinct keys, a lookup finds exactly the items of the dictionary. -/
theorem get?_eq_some_iff (d : Dict κ ν) (k : κ) (v : ν) :
    d.get? k = some v ↔ (k, v) ∈ d.entries := by
  obtain ⟨l, hnd⟩ := d
  unfold get?
  induction l with
  | nil => simp
  | cons e l ih =>
    obtain ⟨a, b⟩ := e
    simp only [List.map_cons, List.nodup_cons, List.mem_map] at hnd
    by_cases h : k = a
    · subst h
      have : ∀ w, (k, w) ∉ l := fun w hw => hnd.1 ⟨(k, w), hw, rfl⟩
      simp [lookup_cons_eq, this, eq_comm]
    · simp [lookup_cons_eq, h, ih hnd.2]

end Dict

/-! ### The upward search `while taken(x): x += 1` -/

/-- `y` is the first value from `x` on that is not taken. -/
def IsFirstFree (taken : Int → Prop) (x y : Int) : Prop :=
  x ≤ y ∧ ¬ taken y ∧ ∀ z, x ≤ z → z < y → taken z

theorem IsFirstFree.congr {P Q : Int → Prop} {x y : Int} (hPQ : ∀ z, P z ↔ Q z)
    (h : IsFirstFree P x y) : IsFirstFree Q x y :=
  ⟨h.1, (hPQ y).not.1 h.2.1, fun z h1 h2 => (hPQ z).1 (h.2.2 z h1 h2)⟩

/-- `while taken(x): x += 1`, run for at most `fuel` tests; `none` when the fuel runs out first. -/
def searchUp (fuel : Nat) (taken : Int → Bool) (x : Int) : Option Int :=
  match fuel with
  | 0 => none
  | fuel + 1 => if taken x then searchUp fuel taken (x + 1) else some x

variable {taken : Int → Bool}

/-- What the loop returns is the first value from its start that is not taken. -/
theorem searchUp_spec {fuel : Nat} {x y : Int} (h : searchUp fuel taken x = some y) :
    IsFirstFree (taken · = true) x y := by
  induction fuel generalizing x with
  | zero => cases h
  | succ fuel ih =>
    unfold searchUp at h
    split at h
    · obtain ⟨hxy, hy, hlt⟩ := ih h
      refine ⟨by omega, hy, fun z hz hzy => ?_⟩
      rcases eq_or_lt_of_le hz with rfl | hz
      · assumption
      · exact hlt z (by omega) hzy
    · rename_i hx
      cases h
      exact ⟨le_rfl, hx, fun z h1 h2 => absurd h2 (not_lt.2 h1)⟩

/-- More fuel does not change a result. -/
theorem searchUp_mono {fuel fuel' : Nat} {x y : Int} (hle : fuel ≤ fuel')
    (h : searchUp fuel taken x = some y) : searchUp fuel' taken x = some y := by
  induction fuel generalizing fuel' x with
  | zero => cases h
  | succ fuel ih =>
    obtain ⟨fuel', rfl⟩ : ∃ f, fuel' = f + 1 := ⟨fuel' - 1, by omega⟩
    unfold searchUp at h ⊢
    split at h
    · rw [if_pos ‹_›]; exact ih (by omega) h
    · rw [if_neg ‹_›]; exact h

/-- The loop finishes within `n + 1` tests when `x + n` is not taken. -/
theorem searchUp_isSome_of_free {fuel n : Nat} {x : Int} (hn : n < fuel)
    (hfree : taken (x + n) = false) : ∃ y, searchUp fuel taken x = some y := by
  induction fuel generalizing x n with
  | zero => omega
  | succ fuel ih =>
    unfold searchUp
    split
    · rename_i hx
      have hn0 : n ≠ 0 := by rintro rfl; simp [hx] at hfree
      exact ih (n := n - 1) (by omega) (by rw [← hfree]; congr 1; omega)
    · exact ⟨x, rfl⟩

/-- Fuel past a bound above which nothing is taken is enough. -/
theorem searchUp_isSome_of_bound {fuel : Nat} {x B : Int} (hB : ∀ z, B ≤ z → taken z = false)
    (hfuel : (B - x).toNat < fuel) : ∃ y, searchUp fuel taken x = some y :=
  searchUp_isSome_of_free hfuel (hB _ (by omega))

/-- The loop finishes, given enough fuel, when only finitely many values are taken. -/
theorem searchUp_isSome_of_finite (hfin : {z | taken z = true}.Finite) (x : Int) :
    ∃ fuel y, searchUp fuel taken x = some y := by
  obtain ⟨B, hB⟩ := hfin.bddAbove
  refine ⟨(B + 1 - x).toNat + 1, searchUp_isSome_of_bound (B := B + 1) (fun z hz => ?_) (by omega)⟩
  by_contra h
  have := hB (show z ∈ {z | taken z = true} by simpa using h)
  omega

end Dstack
