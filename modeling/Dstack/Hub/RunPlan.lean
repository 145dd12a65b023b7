import Dstack.Hub.Runs

/-!
# What `get_run_plan` returns

Each job is planned on `chooseBackend`, the first backend that passes the filter and predicts an
instance type (`planJob_eq`).  A job with no such backend is skipped, not reported: the only check
after the loop is that some job was planned.  So for a non-empty request `get_run_plan` returns a
plan exactly when every chosen backend finds its build plan and some job has a chosen backend,
and the plan lists the planned jobs in request order (`getRunPlan_spec`).  A list of backend
types in the request acts as a prefilter of the backend list (`getRunPlan_filter`).
-/

namespace Dstack

variable {σ S J I B : Type}

/-- The backend `get_run_plan` plans a job on, with the predicted instance type: the first whose
type is listed in the filter, when there is one, and that predicts an instance type. -/
def chooseBackend (filter : Option (List String)) (job : J) (backends : List (Backend σ S J I B)) :
    Option (Backend σ S J I B × I) :=
  backends.findSome? fun b =>
    if filter.all fun types => decide (b.type ∈ types) then (b.predictInstanceType job).map (b, ·)
    else none

/-- The loop skips exactly the backends whose type the filter does not list. -/
theorem skipsBackend_eq (filter : Option (List String)) (type : String) :
    skipsBackend filter type = !(filter.all fun types => decide (type ∈ types)) := by
  cases filter <;> simp [skipsBackend]

/-- The plan of a job whose backend is chosen and whose build plan is found. -/
def plannedJob (filter : Option (List String)) (backends : List (Backend σ S J I B)) (job : J) :
    Option (JobPlan J I B) :=
  (chooseBackend filter job backends).bind fun (b, it) =>
    (b.predictBuildPlan job).toOption.map (⟨job, it, ·⟩)

/-- The job is planned on a local backend. -/
def usesLocal (filter : Option (List String)) (backends : List (Backend σ S J I B)) (job : J) :
    Bool :=
  (chooseBackend filter job backends).any (·.1.type == "local")

/-- Every chosen backend finds the build plan of its job. -/
def BuildsFound (filter : Option (List String)) (backends : List (Backend σ S J I B))
    (jobs : List J) : Prop :=
  ∀ j ∈ jobs, ∀ b it, chooseBackend filter j backends = some (b, it) →
    ∃ build, b.predictBuildPlan j = .ok build

/-- The inner loop plans the job on the chosen backend. -/
theorem planJob_eq (filter : Option (List String)) (job : J) (backends : List (Backend σ S J I B)) :
    planJob filter job backends =
      match chooseBackend filter job backends with
      | none => .ok none
      | some (b, it) =>
        match b.predictBuildPlan job with
        | .error e => .error (.http ⟨HTTP_400_BAD_REQUEST, .one ⟨e.message, e.code⟩⟩)
        | .ok build => .ok (some (⟨job, it, build⟩, b.type == "local")) := by
  induction backends with
  | nil => rfl
  | cons b bs ih =>
    unfold planJob chooseBackend
    rw [List.findSome?_cons, skipsBackend_eq]
    by_cases hs : filter.all fun types => decide (b.type ∈ types)
    · simp only [hs, Bool.not_true, Bool.false_eq_true, if_true, if_false]
      cases b.predictInstanceType job with
      | none => exact ih
      | some it => rfl
    · simp only [hs, Bool.not_false, if_true, if_false]; exact ih

/-- The outer loop returns exactly when every chosen backend finds its build plan; it then adds
the planned jobs in request order and records a local backend. -/
theorem planJobs_eq_ok {backends : List (Backend σ S J I B)} {filter : Option (List String)}
    {jobs : List J} {plans plans' : List (JobPlan J I B)} {loc loc' : Bool} :
    planJobs backends filter jobs plans loc = .ok (plans', loc') ↔
      BuildsFound filter backends jobs ∧ plans' = plans ++ jobs.filterMap (plannedJob filter backends) ∧
        loc' = (loc || jobs.any (usesLocal filter backends)) := by
  induction jobs generalizing plans loc with
  | nil => simp [planJobs, BuildsFound, eq_comm]
  | cons j js ih =>
    unfold planJobs
    rw [planJob_eq]
    simp only [BuildsFound, List.forall_mem_cons, List.filterMap_cons, List.any_cons, plannedJob,
      usesLocal]
    cases hc : chooseBackend filter j backends with
    | none => simpa [BuildsFound] using ih
    | some bi =>
      obtain ⟨b, it⟩ := bi
      cases hb : b.predictBuildPlan j with
      | error e => simp [hb]
      | ok build => simp [hb, ih, BuildsFound, Except.toOption, Bool.or_assoc]

/-- What the outer loop raises is a 400 `HTTPException`. -/
theorem planJobs_error {backends : List (Backend σ S J I B)} {filter : Option (List String)}
    {jobs : List J} {plans : List (JobPlan J I B)} {loc : Bool} {e : PyError}
    (h : planJobs backends filter jobs plans loc = .error e) :
    ∃ d, e = .http ⟨HTTP_400_BAD_REQUEST, d⟩ := by
  induction jobs generalizing plans loc with
  | nil => cases h
  | cons j js ih =>
    unfold planJobs at h
    rw [planJob_eq] at h
    split at h
    · rename_i e' he'
      split at he'
      · cases he'
      · split at he'
        · cases he'; cases h; exact ⟨_, rfl⟩
        · cases he'
    · exact ih h
    · exact ih h

/-- When the chosen backends find their build plans, a job is planned exactly when it has one. -/
theorem filterMap_plannedJob_eq_nil {filter : Option (List String)}
    {backends : List (Backend σ S J I B)} {jobs : List J} (hb : BuildsFound filter backends jobs) :
    jobs.filterMap (plannedJob filter backends) = [] ↔
      ∀ j ∈ jobs, chooseBackend filter j backends = none := by
  rw [List.filterMap_eq_nil_iff]
  refine forall₂_congr fun j hj => ⟨fun h => ?_, fun h => by simp [plannedJob, h]⟩
  cases hc : chooseBackend filter j backends with
  | none => rfl
  | some bi =>
    obtain ⟨build, hbuild⟩ := hb j hj bi.1 bi.2 hc
    simp [plannedJob, hc, hbuild, Except.toOption] at h

/-- For a non-empty request, `get_run_plan` returns a plan exactly when every chosen backend finds
its build plan and some job has a chosen backend.  The plan lists, in request order, the jobs that
have one (the others are skipped), each on its chosen backend, and `local_backend` says whether
one of those is local.  Otherwise it raises a 400 `HTTPException`. -/
theorem getRunPlan_spec (codes : ErrorCodes) (prettyFormat : J → String)
    (projectName userName : String) (backends : List (Backend σ S J I B)) (jobs : List J)
    (filter : Option (List String)) (hne : jobs ≠ []) :
    (∀ plan, getRunPlan codes prettyFormat projectName userName backends ⟨jobs, filter⟩ = .ok plan ↔
      BuildsFound filter backends jobs ∧ (∃ j ∈ jobs, chooseBackend filter j backends ≠ none) ∧
        plan = ⟨projectName, userName, jobs.filterMap (plannedJob filter backends),
          jobs.any (usesLocal filter backends)⟩) ∧
    ∀ e, getRunPlan codes prettyFormat projectName userName backends ⟨jobs, filter⟩ = .error e →
      ∃ d, e = .http ⟨HTTP_400_BAD_REQUEST, d⟩ := by
  obtain ⟨last, hlast⟩ : ∃ j, jobs.getLast? = some j :=
    ⟨jobs.getLast hne, List.getLast?_eq_getLast jobs hne⟩
  unfold getRunPlan
  cases h : planJobs backends filter jobs [] false with
  | error e =>
    refine ⟨fun plan => ⟨fun h' => (by cases h'), fun ⟨hb, _, _⟩ => ?_⟩,
      fun e' he' => planJobs_error (by cases he'; exact h)⟩
    exact absurd ((@planJobs_eq_ok σ S J I B backends filter jobs [] _ false _).2 ⟨hb, rfl, rfl⟩)
      (by rw [h]; nofun)
  | ok r =>
    obtain ⟨plans, loc⟩ := r
    obtain ⟨hb, rfl, rfl⟩ := planJobs_eq_ok.1 h
    simp only [List.nil_append, Bool.false_or, hlast]
    split
    · rename_i hl
      have h0 := (filterMap_plannedJob_eq_nil hb).1 (List.length_eq_zero.1 hl)
      refine ⟨fun plan => ⟨fun h' => (by cases h'), fun ⟨_, ⟨j, hj, hc⟩, _⟩ => absurd (h0 j hj) hc⟩,
        fun e he => ?_⟩
      cases he; exact ⟨_, rfl⟩
    · rename_i hl
      have hc : ∃ j ∈ jobs, chooseBackend filter j backends ≠ none := by
        simpa [filterMap_plannedJob_eq_nil hb] using hl
      exact ⟨fun plan => ⟨fun h' => ⟨hb, hc, by cases h'; rfl⟩, fun ⟨_, _, hp⟩ => by rw [hp]⟩,
        fun e he => by cases he⟩

/-- A backend that predicts an instance type for job `0` only. -/
def planningJobZero : Backend Unit Unit Nat String Unit where
  name := "aws"
  type := "aws"
  storage := ()
  listRepoHeads _ := []
  listJobHeads _ _ := []
  listRunHeads _ _ _ _ _ := []
  getRunHead _ _ _ _ := none
  stopJob s _ _ _ _ := s
  deleteJobHead s _ _ := s
  deleteRunJobs s _ _ := s
  predictInstanceType j := if j = 0 then some "m5.large" else none
  predictBuildPlan _ := .ok ()

theorem getRunPlan_spec_of_two_jobs :
    ([0, 1] : List Nat) ≠ [] ∧
      ∃ plan, getRunPlan ⟨"", ""⟩ (fun _ => "") "p" "u" [planningJobZero] ⟨[0, 1], some ["aws"]⟩ = .ok plan ∧
        BuildsFound (some ["aws"]) [planningJobZero] [0, 1] ∧
        (∃ j ∈ [0, 1], chooseBackend (some ["aws"]) j [planningJobZero] ≠ none) ∧
        plan = ⟨"p", "u", [0, 1].filterMap (plannedJob (some ["aws"]) [planningJobZero]),
          [0, 1].any (usesLocal (some ["aws"]) [planningJobZero])⟩ := by
  have hne : ([0, 1] : List Nat) ≠ [] := by simp
  refine ⟨hne, _, rfl, ?_⟩
  exact ((getRunPlan_spec ⟨"", ""⟩ (fun _ => "") "p" "u" [planningJobZero] [0, 1] (some ["aws"]) hne).1 _).1 rfl

/-- Two jobs are requested and only the first has a backend: the plan has one job plan. -/
theorem getRunPlan_drops_unplanned_job :
    (getRunPlan ⟨"", ""⟩ (fun _ => "") "p" "u" [planningJobZero] ⟨[0, 1], none⟩).toOption.map
      (·.jobPlans.length) = some 1 := rfl


/-! ### The backend filter -/

/-- Under a filter the inner loop chooses as it would on the backends of the listed types alone. -/
theorem chooseBackend_filter (types : List String) (job : J) (backends : List (Backend σ S J I B)) :
    chooseBackend (some types) job backends =
      chooseBackend none job (backends.filter fun b => decide (b.type ∈ types)) := by
  induction backends with
  | nil => rfl
  | cons b bs ih =>
    unfold chooseBackend at ih ⊢
    rw [List.findSome?_cons, ih]
    by_cases h : b.type ∈ types
    · rw [List.filter_cons_of_pos (by simpa using h), List.findSome?_cons]
      simp [skipsBackend, h]
    · rw [List.filter_cons_of_neg (by simpa using h)]
      simp [skipsBackend, h]

theorem planJobs_filter (types : List String) (backends : List (Backend σ S J I B)) (jobs : List J)
    (plans : List (JobPlan J I B)) (loc : Bool) :
    planJobs backends (some types) jobs plans loc =
      planJobs (backends.filter fun b => decide (b.type ∈ types)) none jobs plans loc := by
  induction jobs generalizing plans loc with
  | nil => rfl
  | cons j js ih => simp only [planJobs, planJob_eq, chooseBackend_filter, ih]

/-- A request that lists backend types is planned as a request without a list would be on the
project's backends of those types, kept in their order: the filter never changes which backend
plans a job, what is raised, or the flag `local_backend`. -/
theorem getRunPlan_filter (codes : ErrorCodes) (prettyFormat : J → String)
    (projectName userName : String) (backends : List (Backend σ S J I B)) (jobs : List J)
    (types : List String) :
    getRunPlan codes prettyFormat projectName userName backends ⟨jobs, some types⟩ =
      getRunPlan codes prettyFormat projectName userName
        (backends.filter fun b => decide (b.type ∈ types)) ⟨jobs, none⟩ := by
  simp only [getRunPlan, planJobs_filter]

end Dstack
