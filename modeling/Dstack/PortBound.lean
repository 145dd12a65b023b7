import Dstack.PortAllocation

/-!
# How far the probes of `allocate_local_ports` go

A probe from port `p` skips only ports that are chosen (`map_to_ports`) or in use.  With the ports in
use among a list `U`, the `|c| + |U| + 1` ports from `p` on cannot all be skipped
(`exists_add_not_mem`), so the probe tests at most that many (`probe_bound`).  Along the second
loop the chosen ports and the automatic entries still to come never number more than the whole map
(`mapAuto_isSome_of_fuel`, `mapAuto_auto_lt`): fuel `|ports| + |U|` lets `allocate_local_ports`
finish, and each automatic entry with declared port `p` gets a host port below `p + |ports| + |U|`.
-/

namespace Dstack

/-- The number of automatic entries. -/
def autoCount : List (Int × Option Int) → Nat
  | [] => 0
  | (_, none) :: E => autoCount E + 1
  | (_, some _) :: E => autoCount E

theorem length_explicitHosts_add_autoCount (E : List (Int × Option Int)) :
    (explicitHosts E).length + autoCount E = E.length := by
  induction E with
  | nil => rfl
  | cons e E ih =>
    obtain ⟨p, _ | m⟩ := e
    · simp only [explicitHosts_cons_none, autoCount, List.length_cons]; omega
    · simp only [explicitHosts_cons_some, autoCount, List.length_cons]; omega

/-- Among the `|L| + 1` integers from `p` on, one is not in `L`. -/
theorem exists_add_not_mem (L : List Int) (p : Int) : ∃ n : Nat, n ≤ L.length ∧ p + n ∉ L := by
  by_contra hall
  push_neg at hall
  have hsub : (List.range (L.length + 1)).map (fun n : Nat => p + n) ⊆ L := fun x hx => by
    obtain ⟨n, hn, rfl⟩ := List.mem_map.1 hx
    exact hall n (Nat.lt_succ_iff.1 (List.mem_range.1 hn))
  have hnd : ((List.range (L.length + 1)).map fun n : Nat => p + n).Nodup :=
    (List.nodup_range _).map fun a b h => by omega
  have hle := (hnd.subperm hsub).length_le
  simp only [List.length_map, List.length_range] at hle
  omega

variable {portInUse : Int → Bool} {U : List Int}

/-- A probe from `p` reaches a port it does not skip within `|c| + |U|` steps. -/
theorem probe_bound (hU : ∀ x, portInUse x = true → x ∈ U) (c : List Int) (p : Int) :
    ∃ n : Nat, n ≤ c.length + U.length ∧ portTaken portInUse c (p + n) = false := by
  obtain ⟨n, hn, hnot⟩ := exists_add_not_mem (c ++ U) p
  refine ⟨n, by simpa using hn, ?_⟩
  rw [Bool.eq_false_iff, ne_eq, portTaken_iff]
  rintro (h | h)
  · exact hnot (List.mem_append_left _ h)
  · exact hnot (List.mem_append_right _ (hU _ h))

/-- Fuel past the chosen ports, the automatic entries to come and the ports in use finishes the
second loop. -/
theorem mapAuto_isSome_of_fuel (hU : ∀ x, portInUse x = true → x ∈ U) {fuel : Nat}
    (E : List (Int × Option Int)) (c : List Int) (hfuel : c.length + autoCount E + U.length ≤ fuel) :
    ∃ R, mapAuto portInUse fuel E c = some R := by
  induction E generalizing c with
  | nil => exact ⟨[], rfl⟩
  | cons e E ih =>
    obtain ⟨p, _ | m⟩ := e
    · simp only [autoCount] at hfuel
      obtain ⟨n, hn, hfree⟩ := probe_bound hU c p
      obtain ⟨q, hq⟩ := searchUp_isSome_of_free (by omega : n < fuel) hfree
      obtain ⟨R, hR⟩ := ih (q :: c) (by simp only [List.length_cons]; omega)
      exact ⟨_, (mapAuto_cons_none portInUse).2 ⟨q, R, hq, hR, rfl⟩⟩
    · obtain ⟨R, hR⟩ := ih c hfuel
      exact ⟨_, (mapAuto_cons_some portInUse).2 ⟨R, hR, rfl⟩⟩

/-- Each automatic entry's host port lies below its declared port plus the chosen ports, the
automatic entries and the ports in use. -/
theorem mapAuto_auto_lt (hU : ∀ x, portInUse x = true → x ∈ U) {fuel : Nat}
    {E : List (Int × Option Int)} {c : List Int} {R : List (Int × Int)}
    (h : mapAuto portInUse fuel E c = some R) {i : Nat} {p : Int} (hi : E[i]? = some (p, none)) :
    ∃ q, R[i]? = some (p, q) ∧ p ≤ q ∧ q < p + (c.length + autoCount E) + U.length := by
  induction E generalizing c R i with
  | nil => cases hi
  | cons e E ih =>
    obtain ⟨p', _ | m⟩ := e
    · obtain ⟨q, R', hq, hR', rfl⟩ := (mapAuto_cons_none portInUse).1 h
      cases i with
      | zero =>
        obtain ⟨rfl⟩ : p' = p :=
          congrArg Prod.fst (Option.some.inj (List.getElem?_cons_zero.symm.trans hi))
        obtain ⟨hpq, -, hlt⟩ := searchUp_spec hq
        obtain ⟨n, hn, hfree⟩ := probe_bound hU c p
        have hqn : q ≤ p + n := by
          by_contra hgt
          exact absurd (hlt (p + n) (by omega) (by omega)) (by simp [hfree])
        exact ⟨q, List.getElem?_cons_zero, hpq, by simp only [autoCount]; omega⟩
      | succ i =>
        obtain ⟨q', hq', hpq', hlt⟩ := ih hR' (List.getElem?_cons_succ.symm.trans hi)
        exact ⟨q', List.getElem?_cons_succ.trans hq', hpq',
          by simp only [autoCount, List.length_cons] at hlt ⊢; omega⟩
    · obtain ⟨R', hR', rfl⟩ := (mapAuto_cons_some portInUse).1 h
      cases i with
      | zero => cases List.getElem?_cons_zero.symm.trans hi
      | succ i =>
        obtain ⟨q', hq', hpq', hlt⟩ := ih hR' (List.getElem?_cons_succ.symm.trans hi)
        exact ⟨q', List.getElem?_cons_succ.trans hq', hpq', by simpa only [autoCount] using hlt⟩

/-! ### `allocate_local_ports` -/

variable {toInt : String → Option Int}

/-- The user's host ports and the automatic entries number as many as the collected ports. -/
private theorem chosen_add_autoCount (pm : Dict Int (Option Int)) :
    (explicitHosts pm.entries).reverse.length + autoCount pm.entries = pm.keys.length := by
  rw [List.length_reverse, length_explicitHosts_add_autoCount]
  simp [Dict.keys]

/-- With the ports in use among `U`, fuel `|ports| + |U|`, for `ports` the collected map, lets
`allocate_local_ports` finish: no probe tests more ports than that. -/
theorem allocateLocalPorts_isSome_of_fuel (hU : ∀ x, portInUse x = true → x ∈ U)
    {jobs : List Job} {fuel : Nat}
    (hfuel : ∀ pm, collectPorts toInt jobs = .ok pm → pm.keys.length + U.length ≤ fuel) :
    (allocateLocalPorts toInt portInUse fuel jobs).isSome := by
  rcases allocateLocalPorts_cases portInUse toInt fuel jobs with
    ⟨_, -, he⟩ | ⟨_, -, -, _, he⟩ | ⟨pm, hc, -, hmap⟩
  · rw [he]; rfl
  · rw [he]; rfl
  · have hle : (explicitHosts pm.entries).reverse.length + autoCount pm.entries + U.length ≤ fuel :=
      by rw [chosen_add_autoCount]; exact hfuel pm hc
    obtain ⟨R, hR⟩ := mapAuto_isSome_of_fuel hU pm.entries _ hle
    rw [hR] at hmap
    cases hout : allocateLocalPorts toInt portInUse fuel jobs with
    | none => rw [hout] at hmap; cases hmap
    | some out => rfl

theorem allocateLocalPorts_isSome_of_fuel_8080 :
    (∀ x : Int, (x == 8080) = true → x ∈ [8080]) ∧
      (∀ pm, collectPorts String.toInt? [⟨Dict.empty, some [⟨22, some 2222⟩, ⟨8080, none⟩]⟩] =
        .ok pm → pm.keys.length + ([8080] : List Int).length ≤ 3) ∧
      (allocateLocalPorts String.toInt? (· == 8080) 3
        [⟨Dict.empty, some [⟨22, some 2222⟩, ⟨8080, none⟩]⟩]).isSome := by
  have hU : ∀ x : Int, (x == 8080) = true → x ∈ [8080] := fun x hx => by simpa using hx
  have hfuel : ∀ pm, collectPorts String.toInt?
      [⟨Dict.empty, some [⟨22, some 2222⟩, ⟨8080, none⟩]⟩] = .ok pm →
      pm.keys.length + ([8080] : List Int).length ≤ 3 := fun pm hpm => by cases hpm; decide
  exact ⟨hU, hfuel, allocateLocalPorts_isSome_of_fuel hU hfuel⟩

/-- With the ports in use among `U`, each automatic entry with declared port `p` gets a host port
`q` with `p ≤ q < p + |ports| + |U|`, for `ports` the collected map. -/
theorem allocateLocalPorts_auto_lt (hU : ∀ x, portInUse x = true → x ∈ U) {fuel : Nat}
    {jobs : List Job} {r : Dict Int Int} (h : allocateLocalPorts toInt portInUse fuel jobs = some (.ok r)) :
    ∃ pm, collectPorts toInt jobs = .ok pm ∧ ∀ (i : Nat) (p : Int), pm.entries[i]? = some (p, none) →
      ∃ q, r.entries[i]? = some (p, q) ∧ p ≤ q ∧ q < p + pm.keys.length + U.length := by
  obtain ⟨pm, hc, -, hR⟩ := allocateLocalPorts_eq_ok portInUse toInt h
  refine ⟨pm, hc, fun i p hi => ?_⟩
  obtain ⟨q, hq, hpq, hlt⟩ := mapAuto_auto_lt hU hR hi
  have hcount := chosen_add_autoCount pm
  exact ⟨q, hq, hpq, by omega⟩

theorem allocateLocalPorts_auto_lt_8080 :
    (∀ x : Int, (x == 8080) = true → x ∈ [8080]) ∧
      ∃ r, allocateLocalPorts String.toInt? (· == 8080) 3
          [⟨Dict.empty, some [⟨22, some 2222⟩, ⟨8080, none⟩]⟩] = some (.ok r) ∧
        ∃ pm, collectPorts String.toInt? [⟨Dict.empty, some [⟨22, some 2222⟩, ⟨8080, none⟩]⟩] =
            .ok pm ∧ ∀ (i : Nat) (p : Int), pm.entries[i]? = some (p, none) →
          ∃ q, r.entries[i]? = some (p, q) ∧ p ≤ q ∧
            q < p + pm.keys.length + ([8080] : List Int).length := by
  have hU : ∀ x : Int, (x == 8080) = true → x ∈ [8080] := fun x hx => by simpa using hx
  refine ⟨hU, _, rfl, ?_⟩
  exact @allocateLocalPorts_auto_lt (· == 8080) [8080] String.toInt? hU 3
    [⟨Dict.empty, some [⟨22, some 2222⟩, ⟨8080, none⟩]⟩] _ rfl

end Dstack
