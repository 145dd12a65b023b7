import Dstack.SshTunnel

/-!
# What `allocate_local_ports` returns

* `checkMapped_of_noConflict`, `checkMapped_of_conflict`: the first loop raises `PortUsedError`
  exactly when a user mapping repeats another one or is in use;
* `mapAuto_firstFree`: the second loop gives each automatic entry, in dict order, the first port
  from its declared one that is not in use, not mapped by the user and not given to an earlier
  automatic entry; `mapAuto_nodup`: the host ports are pairwise distinct;
* `mapAuto_isSome`: when only finitely many ports are in use, some fuel finishes every probe;
* `collectPorts_eq_foldl`: the collected map is what the first job's writes (`portWrites`) leave
  in an empty dict, so its keys are the declared ports in the order of their first write and each
  holds its last write (`Dict.keys_foldl_set`, `Dict.get?_foldl_set`).
-/

namespace Dstack

variable (portInUse : Int → Bool)

/-! ### The first loop -/

/-- No user mapping repeats another one or one of `c`, and none is in use. -/
def NoConflict (E : List (Int × Option Int)) (c : List Int) : Prop :=
  (explicitHosts E).Nodup ∧ ∀ m ∈ explicitHosts E, m ∉ c ∧ portInUse m = false

private theorem noConflict_cons_some {p m : Int} {E : List (Int × Option Int)} {c : List Int}
    (hm : m ∉ c) (hu : portInUse m = false) :
    NoConflict portInUse ((p, some m) :: E) c ↔ NoConflict portInUse E (m :: c) := by
  simp only [NoConflict, explicitHosts_cons_some, List.nodup_cons, List.mem_cons,
    forall_eq_or_imp, not_or]
  constructor
  · rintro ⟨⟨hmX, hX⟩, -, hall⟩
    exact ⟨hX, fun x hx => ⟨⟨fun e => hmX (e ▸ hx), (hall x hx).1⟩, (hall x hx).2⟩⟩
  · rintro ⟨hX, hall⟩
    exact ⟨⟨fun hx => (hall m hx).1.1 rfl, hX⟩, ⟨hm, hu⟩, fun x hx => ⟨(hall x hx).1.2, (hall x hx).2⟩⟩

theorem checkMapped_of_noConflict {E : List (Int × Option Int)} {c : List Int}
    (h : NoConflict portInUse E c) :
    checkMapped portInUse E c = .ok ((explicitHosts E).reverse ++ c) := by
  induction E generalizing c with
  | nil => rfl
  | cons e E ih =>
    obtain ⟨p, _ | m⟩ := e
    · exact ih h
    · have hm := h.2 m (List.mem_cons_self _ _)
      rw [checkMapped, if_neg (by simp [hm.1, hm.2]),
        ih ((noConflict_cons_some portInUse hm.1 hm.2).1 h)]
      simp

theorem checkMapped_of_conflict {E : List (Int × Option Int)} {c : List Int}
    (h : ¬ NoConflict portInUse E c) : ∃ msg, checkMapped portInUse E c = .error (.portUsed msg) := by
  induction E generalizing c with
  | nil => exact absurd ⟨List.nodup_nil, by simp⟩ h
  | cons e E ih =>
    obtain ⟨p, _ | m⟩ := e
    · exact ih h
    · rw [checkMapped]
      split
      · exact ⟨_, rfl⟩
      · rename_i hm
        simp only [not_or, Bool.not_eq_true] at hm
        exact ih (by rwa [← noConflict_cons_some portInUse hm.1 hm.2])

/-! ### The second loop -/

theorem portTaken_iff (c : List Int) (x : Int) :
    portTaken portInUse c x = true ↔ x ∈ c ∨ portInUse x = true := by
  simp [portTaken]

/-- A user mapping keeps its host port. -/
theorem mapAuto_explicit {fuel : Nat} {E : List (Int × Option Int)} {c : List Int}
    {R : List (Int × Int)} (h : mapAuto portInUse fuel E c = some R) {p m : Int}
    (hm : (p, some m) ∈ E) : (p, m) ∈ R := by
  induction E generalizing c R with
  | nil => cases hm
  | cons e E ih =>
    obtain ⟨p', _ | m'⟩ := e
    · obtain ⟨q, R', -, hR', rfl⟩ := (mapAuto_cons_none portInUse).1 h
      exact List.mem_cons_of_mem _ (ih hR' (by simpa using hm))
    · obtain ⟨R', hR', rfl⟩ := (mapAuto_cons_some portInUse).1 h
      rcases List.mem_cons.1 hm with he | hm
      · cases he; exact List.mem_cons_self _ _
      · exact List.mem_cons_of_mem _ (ih hR' hm)

/-- Every host port is a user mapping, or was neither chosen before the loop nor in use. -/
theorem mapAuto_values {fuel : Nat} {E : List (Int × Option Int)} {c : List Int}
    {R : List (Int × Int)} (h : mapAuto portInUse fuel E c = some R) :
    ∀ v ∈ R.map Prod.snd, v ∈ explicitHosts E ∨ (v ∉ c ∧ portInUse v = false) := by
  induction E generalizing c R with
  | nil => cases h; simp
  | cons e E ih =>
    obtain ⟨p, _ | m⟩ := e
    · obtain ⟨q, R', hq, hR', rfl⟩ := (mapAuto_cons_none portInUse).1 h
      have hfree : ¬ portTaken portInUse c q = true := (searchUp_spec hq).2.1
      rw [portTaken_iff, not_or] at hfree
      simp only [List.map_cons, List.mem_cons, forall_eq_or_imp, explicitHosts_cons_none]
      refine ⟨.inr ⟨hfree.1, by simpa using hfree.2⟩, fun v hv => ?_⟩
      rcases ih hR' v hv with hv | ⟨hv, hu⟩
      · exact .inl hv
      · exact .inr ⟨fun hc => hv (List.mem_cons_of_mem _ hc), hu⟩
    · obtain ⟨R', hR', rfl⟩ := (mapAuto_cons_some portInUse).1 h
      simp only [List.map_cons, List.mem_cons, forall_eq_or_imp, explicitHosts_cons_some]
      refine ⟨.inl (by simp), fun v hv => ?_⟩
      rcases ih hR' v hv with hv | hv
      · exact .inl (.inr hv)
      · exact .inr hv

/-- The host ports are pairwise distinct when the user mappings are, and all were chosen. -/
theorem mapAuto_nodup {fuel : Nat} {E : List (Int × Option Int)} {c : List Int}
    {R : List (Int × Int)} (h : mapAuto portInUse fuel E c = some R)
    (hnd : (explicitHosts E).Nodup) (hc : ∀ m ∈ explicitHosts E, m ∈ c) :
    (R.map Prod.snd).Nodup := by
  induction E generalizing c R with
  | nil => cases h; simp
  | cons e E ih =>
    obtain ⟨p, _ | m⟩ := e
    · obtain ⟨q, R', hq, hR', rfl⟩ := (mapAuto_cons_none portInUse).1 h
      have hqc : q ∉ c := fun hqc => (searchUp_spec hq).2.1 (by simp [portTaken, hqc])
      refine List.nodup_cons.2 ⟨fun hv => ?_, ih hR' hnd fun m hm => List.mem_cons_of_mem _ (hc m hm)⟩
      rcases mapAuto_values portInUse hR' q hv with hv | hv
      · exact hqc (hc q hv)
      · exact hv.1 (List.mem_cons_self _ _)
    · obtain ⟨R', hR', rfl⟩ := (mapAuto_cons_some portInUse).1 h
      simp only [explicitHosts_cons_some, List.nodup_cons, List.mem_cons, forall_eq_or_imp] at hnd hc
      refine List.nodup_cons.2 ⟨fun hv => ?_, ih hR' hnd.2 hc.2⟩
      rcases mapAuto_values portInUse hR' m hv with hv | hv
      · exact hnd.1 hv
      · exact hv.1 hc.1

/-- The probe of each automatic entry, in dict order, returns the first port from the declared one
that is neither chosen before the loop, nor in use, nor given to an earlier automatic entry. -/
theorem mapAuto_firstFree {fuel : Nat} {E : List (Int × Option Int)} {c : List Int}
    {R : List (Int × Int)} (h : mapAuto portInUse fuel E c = some R) {i : Nat} {p : Int}
    (hi : E[i]? = some (p, none)) :
    ∃ q, R[i]? = some (p, q) ∧
      IsFirstFree (fun x => x ∈ c ∨ portInUse x = true ∨ x ∈ autoHosts (E.take i) (R.take i)) p q := by
  induction E generalizing c R i with
  | nil => cases hi
  | cons e E ih =>
    obtain ⟨p', _ | m⟩ := e
    · obtain ⟨q, R', hq, hR', rfl⟩ := (mapAuto_cons_none portInUse).1 h
      cases i with
      | zero =>
        obtain ⟨rfl⟩ : p' = p := by simpa using hi
        refine ⟨q, by simp, (searchUp_spec hq).congr fun x => ?_⟩
        simp [portTaken_iff, autoHosts]
      | succ i =>
        obtain ⟨q', hq', hfree⟩ := ih hR' (by simpa using hi)
        refine ⟨q', by simpa using hq', hfree.congr fun x => ?_⟩
        simp only [List.take_succ_cons, autoHosts, List.mem_cons, or_assoc, or_left_comm]
    · obtain ⟨R', hR', rfl⟩ := (mapAuto_cons_some portInUse).1 h
      cases i with
      | zero => simp at hi
      | succ i =>
        obtain ⟨q', hq', hfree⟩ := ih hR' (by simpa using hi)
        exact ⟨q', by simpa using hq', by simpa only [List.take_succ_cons, autoHosts] using hfree⟩

/-- More fuel does not change a result. -/
theorem mapAuto_mono {fuel fuel' : Nat} (hle : fuel ≤ fuel') {E : List (Int × Option Int)}
    {c : List Int} {R : List (Int × Int)} (h : mapAuto portInUse fuel E c = some R) :
    mapAuto portInUse fuel' E c = some R := by
  induction E generalizing c R with
  | nil => exact h
  | cons e E ih =>
    obtain ⟨p, _ | m⟩ := e
    · obtain ⟨q, R', hq, hR', rfl⟩ := (mapAuto_cons_none portInUse).1 h
      exact (mapAuto_cons_none portInUse).2 ⟨q, R', searchUp_mono hle hq, ih hR', rfl⟩
    · obtain ⟨R', hR', rfl⟩ := (mapAuto_cons_some portInUse).1 h
      exact (mapAuto_cons_some portInUse).2 ⟨R', ih hR', rfl⟩

/-- With finitely many ports in use, some fuel finishes every probe of the second loop. -/
theorem mapAuto_isSome (hfin : {q | portInUse q = true}.Finite) (E : List (Int × Option Int))
    (c : List Int) : ∃ fuel R, mapAuto portInUse fuel E c = some R := by
  induction E generalizing c with
  | nil => exact ⟨0, [], rfl⟩
  | cons e E ih =>
    obtain ⟨p, _ | m⟩ := e
    · have hfin' : {x | portTaken portInUse c x = true}.Finite := by
        simpa only [portTaken_iff, Set.setOf_or] using c.finite_toSet.union hfin
      obtain ⟨f₀, q, hq⟩ := searchUp_isSome_of_finite hfin' p
      obtain ⟨f₁, R', hR'⟩ := ih (q :: c)
      exact ⟨max f₀ f₁, _, (mapAuto_cons_none portInUse).2
        ⟨q, R', searchUp_mono (Nat.le_max_left _ _) hq, mapAuto_mono portInUse (Nat.le_max_right _ _) hR', rfl⟩⟩
    · obtain ⟨f, R', hR'⟩ := ih c
      exact ⟨f, _, (mapAuto_cons_some portInUse).2 ⟨R', hR', rfl⟩⟩

section Allocate

variable (toInt : String → Option Int)

/-! ### The collected map -/

/-- The writes `allocate_local_ports` makes while collecting: of the first job only, its
`WS_LOGS_PORT` as an automatic entry, then each app spec's `port ↦ map_to_port`. -/
def portWrites : List Job → List (Int × Option Int)
  | [] => []
  | job :: _ => (((job.env.get? "WS_LOGS_PORT").bind toInt).map fun p => (p, none)).toList ++
      (job.appSpecs.getD []).map fun app => (app.port, app.mapToPort)

/-- The keys in the order of their first occurrence, each once. -/
def firstOccurrences (ks : List Int) : List Int :=
  ks.foldl (fun seen k => if k ∈ seen then seen else seen ++ [k]) []

/-- The collected map is what the writes leave in an empty dict. -/
theorem collectPorts_eq_foldl {jobs : List Job} {pm : Dict Int (Option Int)}
    (h : collectPorts toInt jobs = .ok pm) :
    pm = (portWrites toInt jobs).foldl (fun d e => d.set e.1 e.2) Dict.empty := by
  cases jobs with
  | nil => cases h; rfl
  | cons job jobs =>
    simp only [collectPorts_cons, collectJob] at h
    split at h
    · rename_i hws
      cases h
      simp [portWrites, hws, List.foldl_map]
    · rename_i s hws
      split at h
      · cases h
      · rename_i q hq
        cases h
        simp [portWrites, hws, hq, List.foldl_map]

/-! ### `allocate_local_ports` -/

/-- What a call can do: raise while collecting, raise in the first loop, or run the second loop
on the map with `map_to_ports` the user's host ports. -/
theorem allocateLocalPorts_cases (fuel : Nat) (jobs : List Job) :
    (∃ e, collectPorts toInt jobs = .error e ∧
      allocateLocalPorts toInt portInUse fuel jobs = some (.error e)) ∨
    (∃ pm, collectPorts toInt jobs = .ok pm ∧ ¬ NoConflict portInUse pm.entries [] ∧
      ∃ msg, allocateLocalPorts toInt portInUse fuel jobs = some (.error (.portUsed msg))) ∨
    (∃ pm, collectPorts toInt jobs = .ok pm ∧ NoConflict portInUse pm.entries [] ∧
      (allocateLocalPorts toInt portInUse fuel jobs).map (·.map Dict.entries) =
        (mapAuto portInUse fuel pm.entries (explicitHosts pm.entries).reverse).map .ok) := by
  unfold allocateLocalPorts
  cases hc : collectPorts toInt jobs with
  | error e => exact .inl ⟨e, rfl, rfl⟩
  | ok pm =>
    refine .inr ?_
    by_cases hn : NoConflict portInUse pm.entries []
    · refine .inr ⟨pm, rfl, hn, ?_⟩
      simp only [checkMapped_of_noConflict portInUse hn, List.append_nil]
      split <;> simp_all [Except.map]
    · obtain ⟨msg, hmsg⟩ := checkMapped_of_conflict portInUse hn
      exact .inl ⟨pm, rfl, hn, msg, by simp only [hmsg]⟩

/-- A call that returns ran the second loop to its end on the collected map. -/
theorem allocateLocalPorts_eq_ok {fuel : Nat} {jobs : List Job} {r : Dict Int Int}
    (h : allocateLocalPorts toInt portInUse fuel jobs = some (.ok r)) :
    ∃ pm, collectPorts toInt jobs = .ok pm ∧ NoConflict portInUse pm.entries [] ∧
      mapAuto portInUse fuel pm.entries (explicitHosts pm.entries).reverse = some r.entries := by
  rcases allocateLocalPorts_cases portInUse toInt fuel jobs with
    ⟨e, -, he⟩ | ⟨pm, -, -, msg, he⟩ | ⟨pm, hc, hn, hmap⟩
  · rw [h] at he; cases he
  · rw [h] at he; cases he
  · rw [h] at hmap
    obtain ⟨R, hR, he⟩ := Option.map_eq_some'.1 hmap.symm
    cases he
    exact ⟨pm, hc, hn, hR⟩

/-- With finitely many ports in use, some fuel lets every probe finish. -/
theorem allocateLocalPorts_terminates (hfin : {q | portInUse q = true}.Finite) (jobs : List Job) :
    ∃ fuel out, allocateLocalPorts toInt portInUse fuel jobs = some out := by
  rcases allocateLocalPorts_cases portInUse toInt 0 jobs with
    ⟨_, -, he⟩ | ⟨_, -, -, _, he⟩ | ⟨pm, hc, -, -⟩
  · exact ⟨0, _, he⟩
  · exact ⟨0, _, he⟩
  · obtain ⟨fuel, R, hR⟩ := mapAuto_isSome portInUse hfin pm.entries (explicitHosts pm.entries).reverse
    refine ⟨fuel, ?_⟩
    rcases allocateLocalPorts_cases portInUse toInt fuel jobs with
      ⟨_, -, he⟩ | ⟨_, -, -, _, he⟩ | ⟨pm', hc', -, hmap⟩
    · exact ⟨_, he⟩
    · exact ⟨_, he⟩
    · obtain rfl : pm' = pm := Except.ok.inj (hc'.symm.trans hc)
      rw [hR] at hmap
      obtain ⟨out, hout, -⟩ := Option.map_eq_some'.1 hmap
      exact ⟨out, hout⟩

/-- With finitely many ports in use, `allocate_local_ports` terminates, and whenever it returns,
its keys are the collected declared ports: those of the first job, its `WS_LOGS_PORT` first and
then its app specs' ports, each once in the order of its first write, with the `map_to_port` of
its last write.  A user mapping keeps its host port; an automatic entry, in dict order, gets the
first port from its declared one that is not in use, not mapped by the user and not given to an
earlier automatic entry; no two declared ports share a host port, and no host port is in use. -/
theorem allocateLocalPorts_spec (hfin : {q | portInUse q = true}.Finite) (jobs : List Job) :
    (∃ fuel out, allocateLocalPorts toInt portInUse fuel jobs = some out) ∧
    ∀ fuel r, allocateLocalPorts toInt portInUse fuel jobs = some (.ok r) →
      ∃ pm, collectPorts toInt jobs = .ok pm ∧
        pm.keys = firstOccurrences ((portWrites toInt jobs).map Prod.fst) ∧
        (∀ p, pm.get? p = (portWrites toInt jobs).reverse.lookup p) ∧ r.keys = pm.keys ∧
        (∀ p m, pm.get? p = some (some m) → r.get? p = some m) ∧
        (∀ i p, pm.entries[i]? = some (p, none) → ∃ q, r.entries[i]? = some (p, q) ∧
          IsFirstFree (fun x => portInUse x = true ∨ x ∈ explicitHosts pm.entries ∨
            x ∈ autoHosts (pm.entries.take i) (r.entries.take i)) p q) ∧
        (∀ p₁ p₂ q, r.get? p₁ = some q → r.get? p₂ = some q → p₁ = p₂) ∧
        (∀ p q, r.get? p = some q → portInUse q = false) := by
  refine ⟨allocateLocalPorts_terminates portInUse toInt hfin jobs, ?_⟩
  intro fuel r h
  obtain ⟨pm, hc, hn, hR⟩ := allocateLocalPorts_eq_ok portInUse toInt h
  have hval : ∀ p q, r.get? p = some q → portInUse q = false := by
    intro p q hpq
    rw [Dict.get?_eq_some_iff] at hpq
    rcases mapAuto_values portInUse hR q (List.mem_map_of_mem _ hpq) with hq | hq
    · exact (hn.2 q hq).2
    · exact hq.2
  have hpm := collectPorts_eq_foldl toInt hc
  refine ⟨pm, hc, by rw [hpm, Dict.keys_foldl_set]; rfl,
    fun p => by rw [hpm, Dict.get?_foldl_set, Dict.get?_empty, Option.or_none],
    mapAuto_keys portInUse hR, fun p m hpm => ?_, fun i p hi => ?_, fun p₁ p₂ q h₁ h₂ => ?_, hval⟩
  · rw [Dict.get?_eq_some_iff] at hpm ⊢
    exact mapAuto_explicit portInUse hR hpm
  · obtain ⟨q, hq, hfree⟩ := mapAuto_firstFree portInUse hR hi
    exact ⟨q, hq, hfree.congr fun x => by rw [List.mem_reverse, or_left_comm]⟩
  · rw [Dict.get?_eq_some_iff] at h₁ h₂
    have hnd := mapAuto_nodup portInUse hR hn.1 fun m hm => List.mem_reverse.2 hm
    exact congrArg Prod.fst (List.inj_on_of_nodup_map hnd h₁ h₂ rfl)

theorem allocateLocalPorts_spec_of_8080_in_use :
    {q : Int | (q == 8080) = true}.Finite ∧
      ∃ fuel out, allocateLocalPorts String.toInt? (· == 8080) fuel
        [⟨Dict.empty.set "WS_LOGS_PORT" "8080", some [⟨22, some 2222⟩, ⟨8081, none⟩]⟩] = some out :=
  have hfin : {q : Int | (q == 8080) = true}.Finite := by simp
  ⟨hfin, (allocateLocalPorts_spec _ String.toInt? hfin _).1⟩

/-- A user mapping of the collected map repeats another one or is in use. -/
def ExplicitConflict (pm : Dict Int (Option Int)) : Prop :=
  ¬ (explicitHosts pm.entries).Nodup ∨ ∃ m ∈ explicitHosts pm.entries, portInUse m = true

theorem noConflict_nil_iff (pm : Dict Int (Option Int)) :
    NoConflict portInUse pm.entries [] ↔ ¬ ExplicitConflict portInUse pm := by
  simp [NoConflict, ExplicitConflict]

/-- Past the first loop nothing raises. -/
theorem allocateLocalPorts_ne_error {fuel : Nat} {jobs : List Job} {pm : Dict Int (Option Int)}
    (hc : collectPorts toInt jobs = .ok pm) (hn : NoConflict portInUse pm.entries []) (e : PyError) :
    allocateLocalPorts toInt portInUse fuel jobs ≠ some (.error e) := by
  intro h
  rcases allocateLocalPorts_cases portInUse toInt fuel jobs with
    ⟨_, hc', -⟩ | ⟨_, hc', hn', -⟩ | ⟨_, -, -, hmap⟩
  · rw [hc] at hc'; cases hc'
  · rw [hc] at hc'; cases hc'; exact hn' hn
  · rw [h] at hmap
    obtain ⟨R, -, he⟩ := Option.map_eq_some'.1 hmap.symm
    cases he

/-- `allocate_local_ports` raises `PortUsedError` exactly when a user mapping of the collected
map repeats another one or is in use.  Otherwise it never raises, and with finitely many ports in
use some fuel lets it return. -/
theorem allocateLocalPorts_portUsed_iff (hfin : {q | portInUse q = true}.Finite) (jobs : List Job) :
    (∀ fuel, (∃ msg, allocateLocalPorts toInt portInUse fuel jobs = some (.error (.portUsed msg))) ↔
      ∃ pm, collectPorts toInt jobs = .ok pm ∧ ExplicitConflict portInUse pm) ∧
    ∀ pm, collectPorts toInt jobs = .ok pm → ¬ ExplicitConflict portInUse pm →
      (∀ fuel e, allocateLocalPorts toInt portInUse fuel jobs ≠ some (.error e)) ∧
      ∃ fuel r, allocateLocalPorts toInt portInUse fuel jobs = some (.ok r) := by
  refine ⟨fun fuel => ⟨fun ⟨msg, h⟩ => ?_, fun ⟨pm, hc, hx⟩ => ?_⟩, fun pm hc hx => ?_⟩
  · rcases allocateLocalPorts_cases portInUse toInt fuel jobs with
      ⟨e, hc, he⟩ | ⟨pm, hc, hn, -⟩ | ⟨pm, hc, hn, -⟩
    · obtain ⟨s, rfl⟩ := collectPorts_error toInt hc
      rw [h] at he; cases he
    · exact ⟨pm, hc, not_not.1 (mt (noConflict_nil_iff portInUse pm).2 hn)⟩
    · exact absurd h (allocateLocalPorts_ne_error portInUse toInt hc hn _)
  · rcases allocateLocalPorts_cases portInUse toInt fuel jobs with
      ⟨_, hc', -⟩ | ⟨_, hc', -, he⟩ | ⟨_, hc', hn, -⟩
    · rw [hc] at hc'; cases hc'
    · exact he
    · rw [hc] at hc'; cases hc'
      exact absurd hx ((noConflict_nil_iff portInUse _).1 hn)
  · have hn := (noConflict_nil_iff portInUse pm).2 hx
    refine ⟨fun fuel e => allocateLocalPorts_ne_error portInUse toInt hc hn e, ?_⟩
    obtain ⟨fuel, out, hout⟩ := allocateLocalPorts_terminates portInUse toInt hfin jobs
    cases out with
    | error e => exact absurd hout (allocateLocalPorts_ne_error portInUse toInt hc hn e)
    | ok r => exact ⟨fuel, r, hout⟩

theorem allocateLocalPorts_portUsed_iff_of_8080_in_use :
    {q : Int | (q == 8080) = true}.Finite ∧
      ((∃ msg, allocateLocalPorts String.toInt? (· == 8080) 0
          [⟨Dict.empty, some [⟨22, some 8080⟩]⟩] = some (.error (.portUsed msg))) ↔
        ∃ pm, collectPorts String.toInt? [⟨Dict.empty, some [⟨22, some 8080⟩]⟩] = .ok pm ∧
          ExplicitConflict (· == 8080) pm) :=
  have hfin : {q : Int | (q == 8080) = true}.Finite := by simp
  ⟨hfin, (allocateLocalPorts_portUsed_iff _ String.toInt? hfin _).1 0⟩

end Allocate

end Dstack
