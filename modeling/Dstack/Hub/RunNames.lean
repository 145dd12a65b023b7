import Dstack.Hub.Runs
import Dstack.Decimal
import Mathlib.Data.Finset.Card

/-!
# `_create_run` picks a free name

Without a run name, `_create_run` tries `{prefix}-1`, `{prefix}-2`, … and returns the first name
no job head of the repo has; `run_names` holds exactly the run names of the job heads the backends
list (`mem_runNames`).  Decimal numerals are injective (`natRepr_injective`), so these names
are pairwise distinct, and among the first `|N| + 1` of them one is free (`exists_free_prefixedName`):
the loop stops within `|N| + 1` tests.  Across calls, once each returned name is recorded and no
name is lost, the names generated under one prefix grow (`createRun_lt_of_recorded`), and all
names handed out along a run, under whatever prefixes, are pairwise distinct (`createRun_run_nodup`).
-/

namespace Dstack

/-! ### The candidate names -/

/-- Candidate names with non-negative numbers are equal only for equal numbers. -/
theorem prefixedName_inj (runNamePrefix : String) {i j : Int} (hi : 0 ≤ i) (hj : 0 ≤ j)
    (h : prefixedName runNamePrefix i = prefixedName runNamePrefix j) : i = j := by
  lift i to Nat using hi
  lift j to Nat using hj
  have := congrArg String.data h
  simp only [prefixedName, String.data_append, List.append_assoc, List.append_cancel_left_eq] at this
  simp only [toString, List.append_nil] at this
  exact congrArg _ (natRepr_injective (String.ext this))

/-- Among the names `{prefix}-1`, …, `{prefix}-(|N| + 1)` one is not in `N`. -/
theorem exists_free_prefixedName (runNamePrefix : String) (N : List String) :
    ∃ n : Nat, n ≤ N.toFinset.card ∧ prefixedName runNamePrefix (1 + n) ∉ N := by
  by_contra hall
  push_neg at hall
  have hle := Finset.card_le_card_of_injOn (s := Finset.range (N.toFinset.card + 1))
    (t := N.toFinset) (fun n => prefixedName runNamePrefix (1 + (n : Int)))
    (fun n hn => List.mem_toFinset.2 (hall n (by simpa [Nat.lt_succ_iff] using hn)))
    (fun a _ b _ hab => by
      have := prefixedName_inj runNamePrefix (i := 1 + (a : Int)) (j := 1 + (b : Int))
        (by omega) (by omega) hab
      omega)
  rw [Finset.card_range] at hle
  omega

/-! ### `_create_run` -/

variable {σ S J I B : Type}

/-- Whatever `_create_run` returns is not the run name of a job head of the repo. -/
theorem createRun_not_mem {codes : ErrorCodes} {fuel : Nat} {runNamePrefix : String}
    {backends : List (Backend σ S J I B)} {repoId : String} {runName : Option String}
    {name : String} (h : createRun codes fuel runNamePrefix backends repoId runName = some (.ok name)) :
    name ∉ runNames backends repoId := by
  unfold createRun at h
  split at h
  · split at h
    · cases h
    · cases h; assumption
  · obtain ⟨i, hi, he⟩ := Option.map_eq_some'.1 h
    cases he
    simpa using (searchUp_spec hi).2.1

/-- The run names `_create_run` collects are those of the job heads the backends list for the
repo. -/
theorem mem_runNames {backends : List (Backend σ S J I B)} {repoId name : String} :
    name ∈ runNames backends repoId ↔
      ∃ b ∈ backends, ∃ jobHead ∈ b.listJobHeads b.storage repoId, jobHead.runName = name := by
  simp only [runNames, List.mem_map, List.mem_flatMap]
  exact ⟨fun ⟨jh, ⟨b, hb, hjh⟩, he⟩ => ⟨b, hb, jh, hjh, he⟩,
    fun ⟨b, hb, jh, hjh, he⟩ => ⟨jh, ⟨b, hb, hjh⟩, he⟩⟩

/-- For `N` the run names of the repo's job heads: without a run name, `_create_run` terminates
within `|N| + 1` tests and returns `{prefix}-{i}` for the least `i ≥ 1` whose name is not in `N`,
with `i ≤ |N| + 1`.  With a run name it returns the name when it is not in `N` and raises a 400
`HTTPException` when it is.  Whatever it returns is not in `N`. -/
theorem createRun_spec (codes : ErrorCodes) (runNamePrefix : String)
    (backends : List (Backend σ S J I B)) (repoId : String) (N : Finset String)
    (hN : ∀ name, name ∈ N ↔
      ∃ b ∈ backends, ∃ jobHead ∈ b.listJobHeads b.storage repoId, jobHead.runName = name) :
    (∀ fuel, N.card < fuel →
      ∃ i : Int, createRun codes fuel runNamePrefix backends repoId none =
          some (.ok (prefixedName runNamePrefix i)) ∧
        IsFirstFree (fun i => prefixedName runNamePrefix i ∈ N) 1 i ∧ i ≤ N.card + 1) ∧
    (∀ fuel name, name ∉ N →
      createRun codes fuel runNamePrefix backends repoId (some name) = some (.ok name)) ∧
    (∀ fuel name, name ∈ N →
      createRun codes fuel runNamePrefix backends repoId (some name) =
        some (.error (.http ⟨HTTP_400_BAD_REQUEST, .list [⟨s!"Run {name} exists", codes.backendValue⟩]⟩))) ∧
    (∀ fuel runName name,
      createRun codes fuel runNamePrefix backends repoId runName = some (.ok name) → name ∉ N) := by
  obtain rfl : N = (runNames backends repoId).toFinset :=
    Finset.ext fun name => by rw [hN, List.mem_toFinset, mem_runNames]
  simp only [List.mem_toFinset]
  refine ⟨fun fuel hfuel => ?_, fun fuel name h => by simp [createRun, h],
    fun fuel name h => by simp [createRun, h], fun _ _ _ => createRun_not_mem⟩
  obtain ⟨n, hn, hfree⟩ := exists_free_prefixedName runNamePrefix (runNames backends repoId)
  obtain ⟨i, hi⟩ := @searchUp_isSome_of_free
    (fun i => decide (prefixedName runNamePrefix i ∈ runNames backends repoId)) fuel n 1
    (by omega) (by simpa using hfree)
  have hspec := (searchUp_spec hi).congr (Q := fun i => prefixedName runNamePrefix i ∈ runNames backends repoId)
    fun z => by simp
  refine ⟨i, by simp [createRun, hi], hspec, ?_⟩
  by_contra hlt
  exact hfree (hspec.2.2 (1 + n) (by omega) (by omega))

/-- A backend whose repo has one job head per given run name. -/
def jobHeadsOf (names : List String) : Backend Unit Unit Unit Unit Unit where
  name := "local"
  type := "local"
  storage := ()
  listRepoHeads _ := []
  listJobHeads _ _ := names.map fun n => ⟨n, n, ()⟩
  listRunHeads _ _ _ _ _ := []
  getRunHead _ _ _ _ := none
  stopJob s _ _ _ _ := s
  deleteJobHead s _ _ := s
  deleteRunJobs s _ _ := s
  predictInstanceType _ := none
  predictBuildPlan _ := .ok ()

theorem createRun_spec_of_p1 :
    (∀ name, name ∈ ({"p-1"} : Finset String) ↔ ∃ b ∈ [jobHeadsOf ["p-1"]],
      ∃ jobHead ∈ b.listJobHeads b.storage "repo", jobHead.runName = name) ∧
    ∃ i : Int, createRun ⟨"", ""⟩ 2 "p" [jobHeadsOf ["p-1"]] "repo" none =
        some (.ok (prefixedName "p" i)) ∧
      IsFirstFree (fun i => prefixedName "p" i ∈ ({"p-1"} : Finset String)) 1 i ∧
      i ≤ ({"p-1"} : Finset String).card + 1 :=
  have hN : ∀ name, name ∈ ({"p-1"} : Finset String) ↔ ∃ b ∈ [jobHeadsOf ["p-1"]],
      ∃ jobHead ∈ b.listJobHeads b.storage "repo", jobHead.runName = name := fun name => by
    simp [jobHeadsOf, eq_comm]
  ⟨hN, (createRun_spec ⟨"", ""⟩ "p" [jobHeadsOf ["p-1"]] "repo" {"p-1"} hN).1 2 (by decide)⟩

/-! ### Successive calls -/

/-- Between two states of the backends: no run name of a job head is lost, and the name handed
out in the first is recorded by the second (the run's jobs were submitted under it). -/
def NamesRecorded (repoId : String) (x y : List (Backend σ S J I B) × String) : Prop :=
  (∀ n ∈ runNames x.1 repoId, n ∈ runNames y.1 repoId) ∧ x.2 ∈ runNames y.1 repoId

instance (repoId : String) : DecidableRel (NamesRecorded (σ := σ) (S := S) (J := J) (I := I)
    (B := B) repoId) :=
  fun _ _ => inferInstanceAs (Decidable (_ ∧ _))

theorem NamesRecorded.trans {repoId : String} {x y z : List (Backend σ S J I B) × String}
    (hxy : NamesRecorded repoId x y) (hyz : NamesRecorded repoId y z) : NamesRecorded repoId x z :=
  ⟨fun n hn => hyz.1 n (hxy.1 n hn), hyz.1 _ hxy.2⟩

/-- Once the name a call returned is recorded and no name is lost, the next call without a run name
and under the same prefix returns a later candidate: `{prefix}-{i}` and then `{prefix}-{j}` with
`1 ≤ i < j`. -/
theorem createRun_lt_of_recorded {codes : ErrorCodes} {fuel fuel' : Nat} {runNamePrefix : String}
    {backends backends' : List (Backend σ S J I B)} {repoId name name' : String}
    (hrec : NamesRecorded repoId (backends, name) (backends', name'))
    (h : createRun codes fuel runNamePrefix backends repoId none = some (.ok name))
    (h' : createRun codes fuel' runNamePrefix backends' repoId none = some (.ok name')) :
    ∃ i j : Int, name = prefixedName runNamePrefix i ∧ name' = prefixedName runNamePrefix j ∧
      1 ≤ i ∧ i < j := by
  simp only [createRun, Option.map_eq_some', Except.ok.injEq] at h h'
  obtain ⟨i, hi, rfl⟩ := h
  obtain ⟨j, hj, rfl⟩ := h'
  obtain ⟨h1i, -, hbelow⟩ := searchUp_spec hi
  obtain ⟨h1j, hfree, -⟩ := searchUp_spec hj
  refine ⟨i, j, rfl, rfl, h1i, lt_of_not_le fun hji => hfree ?_⟩
  rcases eq_or_lt_of_le hji with rfl | hlt
  · simpa using hrec.2
  · simpa using hrec.1 _ (by simpa using hbelow j h1j hlt)

theorem createRun_lt_of_recorded_p2 :
    NamesRecorded "repo" ([jobHeadsOf ["p-1"]], "p-2") ([jobHeadsOf ["p-1", "p-2"]], "p-3") ∧
      createRun ⟨"", ""⟩ 3 "p" [jobHeadsOf ["p-1"]] "repo" none = some (.ok "p-2") ∧
      createRun ⟨"", ""⟩ 4 "p" [jobHeadsOf ["p-1", "p-2"]] "repo" none = some (.ok "p-3") ∧
      ∃ i j : Int, "p-2" = prefixedName "p" i ∧ "p-3" = prefixedName "p" j ∧ 1 ≤ i ∧ i < j :=
  have hrec : NamesRecorded "repo" ([jobHeadsOf ["p-1"]], "p-2")
      ([jobHeadsOf ["p-1", "p-2"]], "p-3") := by decide
  have h : createRun ⟨"", ""⟩ 3 "p" [jobHeadsOf ["p-1"]] "repo" none = some (.ok "p-2") := rfl
  have h' : createRun ⟨"", ""⟩ 4 "p" [jobHeadsOf ["p-1", "p-2"]] "repo" none =
    some (.ok "p-3") := rfl
  ⟨hrec, h, h', createRun_lt_of_recorded hrec h h'⟩

/-- Along a run of calls, each returning a name (generated under any prefix, or given) that the
next state records, with no name ever lost, the names handed out are pairwise distinct. -/
theorem createRun_run_nodup {codes : ErrorCodes} {repoId : String}
    (run : List (List (Backend σ S J I B) × String))
    (halloc : ∀ x ∈ run, ∃ fuel runNamePrefix runName,
      createRun codes fuel runNamePrefix x.1 repoId runName = some (.ok x.2))
    (hrun : run.Chain' (NamesRecorded repoId)) :
    (run.map (·.2)).Nodup := by
  haveI : IsTrans _ (NamesRecorded (σ := σ) (S := S) (J := J) (I := I) (B := B) repoId) :=
    ⟨fun _ _ _ => NamesRecorded.trans⟩
  refine List.pairwise_map.2 ((List.chain'_iff_pairwise.1 hrun).imp_of_mem fun _ hy hxy he => ?_)
  obtain ⟨fuel, runNamePrefix, runName, h⟩ := halloc _ hy
  exact createRun_not_mem h (he ▸ hxy.2)

/-- Three calls: the second with a run name of its own, the third under another prefix. -/
def threeCalls : List (List (Backend Unit Unit Unit Unit Unit) × String) :=
  [([jobHeadsOf []], "p-1"), ([jobHeadsOf ["p-1"]], "train"), ([jobHeadsOf ["p-1", "train"]], "q-1")]

theorem createRun_run_nodup_threeCalls :
    (∀ x ∈ threeCalls, ∃ fuel runNamePrefix runName,
        createRun ⟨"", ""⟩ fuel runNamePrefix x.1 "repo" runName = some (.ok x.2)) ∧
      threeCalls.Chain' (NamesRecorded "repo") ∧ (threeCalls.map (·.2)).Nodup :=
  have halloc : ∀ x ∈ threeCalls, ∃ fuel runNamePrefix runName,
      createRun ⟨"", ""⟩ fuel runNamePrefix x.1 "repo" runName = some (.ok x.2) := by
    intro x hx
    simp only [threeCalls, List.mem_cons, List.mem_singleton, List.not_mem_nil, or_false] at hx
    rcases hx with rfl | rfl | rfl
    · exact ⟨3, "p", none, rfl⟩
    · exact ⟨3, "p", some "train", rfl⟩
    · exact ⟨3, "q", none, rfl⟩
  have hrun : threeCalls.Chain' (NamesRecorded "repo") :=
    List.chain'_cons.2 ⟨by decide, List.chain'_pair.2 (by decide)⟩
  ⟨halloc, hrun, createRun_run_nodup threeCalls halloc hrun⟩

end Dstack
