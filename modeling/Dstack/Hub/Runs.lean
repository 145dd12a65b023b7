import Dstack.Basic

/-!
# The run routes of the hub (`_internal/hub/routers/runs.py`)

`get_run_plan`, `_create_run`, `delete_runs`, `stop_runs`, `list_runs` and `list_all_runs`, over
the project's backends as `get_backends(project)` returns them.  A backend is its storage together
with the methods the routes call on it; the methods are arbitrary functions, so every result here
holds for any backend implementation.  A raised exception keeps what the backends did before it: `deleteRuns`
returns the backends along with the outcome.

The `JobStatus` enum and the error classes' `code` attributes are not among these sources; what
the routes read of `JobStatus` (`PENDING`, `STOPPED`, `is_unfinished`) and the two codes are
parameters.
-/

namespace Dstack

/-- `PENDING`, `STOPPED` and `is_unfinished()` of `JobStatus`. -/
structure JobStatusTable (S : Type) where
  pending : S
  stopped : S
  isUnfinished : S → Bool

/-- `NoMatchingInstanceError.code` and `BackendValueError.code`. -/
structure ErrorCodes where
  noMatchingInstance : String
  backendValue : String

/-- The fields of a `JobHead` the routes read. -/
structure JobHead (S : Type) where
  jobId : String
  runName : String
  status : S
  deriving DecidableEq, Repr

/-- The fields of a `RunHead` the routes read. -/
structure RunHead (S : Type) where
  runName : String
  status : S
  jobHeads : List (JobHead S)
  submittedAt : Int

/-- The field of a `RepoHead` the routes read. -/
structure RepoHead where
  repoId : String

/-- `BuildNotFoundError`, raised by `predict_build_plan`. -/
structure BuildNotFoundError where
  message : String
  code : String

/-- A backend of the project: its storage `σ` and the methods the routes call, with the repo id,
run name and job id arguments of the hub's `Backend`. -/
structure Backend (σ S J I B : Type) where
  /-- `db_backend.name`. -/
  name : String
  /-- `db_backend.type`. -/
  type : String
  storage : σ
  listRepoHeads : σ → List RepoHead
  listJobHeads : σ → String → List (JobHead S)
  /-- `list_run_heads(repo_id, run_name, include_request_heads, interrupted_job_new_status)`. -/
  listRunHeads : σ → String → Option String → Bool → S → List (RunHead S)
  /-- `get_run_head(repo_id, run_name, include_request_heads)`. -/
  getRunHead : σ → String → String → Bool → Option (RunHead S)
  /-- `stop_job(repo_id, job_id, terminate, abort)`. -/
  stopJob : σ → String → String → Bool → Bool → σ
  deleteJobHead : σ → String → String → σ
  deleteRunJobs : σ → String → String → σ
  predictInstanceType : J → Option I
  predictBuildPlan : J → Except BuildNotFoundError B

/-- A `JobPlan`. -/
structure JobPlan (J I B : Type) where
  job : J
  instanceType : I
  buildPlan : B

/-- A `RunPlan`. -/
structure RunPlan (J I B : Type) where
  project : String
  hubUserName : String
  jobPlans : List (JobPlan J I B)
  localBackend : Bool

/-- The body of `runs/get_plan`. -/
structure RunsGetPlan (J : Type) where
  jobs : List J
  backends : Option (List String)

variable {σ S J I B : Type}

/-! ### `get_run_plan` -/

/-- `body.backends is not None and db_backend.type not in body.backends`. -/
def skipsBackend (filter : Option (List String)) (type : String) : Bool :=
  match filter with
  | none => false
  | some types => decide (type ∉ types)

/-- The inner loop of `get_run_plan`: the first backend that passes the filter and predicts an
instance type plans the job, or raises when its build plan is not found.  The flag is whether
that backend is local. -/
def planJob (filter : Option (List String)) (job : J) :
    List (Backend σ S J I B) → Except PyError (Option (JobPlan J I B × Bool))
  | [] => .ok none
  | b :: bs =>
    if skipsBackend filter b.type then planJob filter job bs
    else
      match b.predictInstanceType job with
      | none => planJob filter job bs
      | some instanceType =>
        match b.predictBuildPlan job with
        | .error e => .error (.http ⟨HTTP_400_BAD_REQUEST, .one ⟨e.message, e.code⟩⟩)
        | .ok build => .ok (some (⟨job, instanceType, build⟩, b.type == "local"))

/-- The outer loop of `get_run_plan`, accumulating `job_plans` and `local_backend`. -/
def planJobs (backends : List (Backend σ S J I B)) (filter : Option (List String)) :
    List J → List (JobPlan J I B) → Bool → Except PyError (List (JobPlan J I B) × Bool)
  | [], jobPlans, localBackend => .ok (jobPlans, localBackend)
  | job :: jobs, jobPlans, localBackend =>
    match planJob filter job backends with
    | .error e => .error e
    | .ok none => planJobs backends filter jobs jobPlans localBackend
    | .ok (some (plan, isLocal)) =>
      planJobs backends filter jobs (jobPlans ++ [plan]) (localBackend || isLocal)

/-- `get_run_plan(project_name, body, user)`.  After the loop `job` is the last requested job,
and unbound when none was requested. -/
def getRunPlan (codes : ErrorCodes) (prettyFormat : J → String) (projectName userName : String)
    (backends : List (Backend σ S J I B)) (body : RunsGetPlan J) :
    Except PyError (RunPlan J I B) :=
  match planJobs backends body.backends body.jobs [] false with
  | .error e => .error e
  | .ok (jobPlans, localBackend) =>
    if jobPlans.length = 0 then
      match body.jobs.getLast? with
      | none => .error (.unboundLocal "job")
      | some job =>
        let requirements := prettyFormat job
        .error (.http ⟨HTTP_400_BAD_REQUEST, .one ⟨
          s!"No available instance type matching requirements ({requirements})",
          codes.noMatchingInstance⟩⟩)
    else .ok ⟨projectName, userName, jobPlans, localBackend⟩

/-! ### `_create_run` -/

/-- `{job_head.run_name for job_head in job_heads}`, the heads of every backend. -/
def runNames (backends : List (Backend σ S J I B)) (repoId : String) : List String :=
  (backends.flatMap fun b => b.listJobHeads b.storage repoId).map (·.runName)

/-- `f"{run_name_prefix}-{i}"`. -/
def prefixedName (runNamePrefix : String) (i : Int) : String := s!"{runNamePrefix}-{i}"

/-- `_create_run(project, repo_id, run_name)`, with the prefix `generate_remote_run_name_prefix`
returned; the `while True` loop runs for at most `fuel` tests, `none` when they run out. -/
def createRun (codes : ErrorCodes) (fuel : Nat) (runNamePrefix : String)
    (backends : List (Backend σ S J I B)) (repoId : String) (runName : Option String) :
    Option (Except PyError String) :=
  match runName with
  | some name =>
    if name ∈ runNames backends repoId then
      some (.error (.http ⟨HTTP_400_BAD_REQUEST, .list [⟨s!"Run {name} exists", codes.backendValue⟩]⟩))
    else some (.ok name)
  | none =>
    (searchUp fuel (fun i => decide (prefixedName runNamePrefix i ∈ runNames backends repoId)) 1).map
      fun i => .ok (prefixedName runNamePrefix i)

/-! ### `delete_runs` and `stop_runs` -/

section Delete

variable [DecidableEq S] (tbl : JobStatusTable S) (codes : ErrorCodes) (repoId : String)

/-- `'Run {run_name} is not finished'`, the exception of `delete_runs`. -/
def notFinished (runName : String) : PyError :=
  .http ⟨HTTP_400_BAD_REQUEST, .list [⟨s!"Run {runName} is not finished", codes.backendValue⟩]⟩

/-- The body of `for job_head in run_head.job_heads` in `delete_runs`: force-stop a stopped job,
then delete its head. -/
def deleteJobHeadIn (b : Backend σ S J I B) (s : σ) (jobHead : JobHead S) : σ :=
  let s := if jobHead.status = tbl.stopped then b.stopJob s repoId jobHead.jobId true true else s
  b.deleteJobHead s repoId jobHead.jobId

/-- The inner loop of `delete_runs` for one run name: the first backend with a head for the run
deletes it, or raises when the run is unfinished, before changing anything. -/
def deleteRunIn (runName : String) :
    List (Backend σ S J I B) → Except PyError (List (Backend σ S J I B))
  | [] => .ok []
  | b :: bs =>
    match b.getRunHead b.storage repoId runName false with
    | none => (b :: ·) <$> deleteRunIn runName bs
    | some runHead =>
      if tbl.isUnfinished runHead.status then .error (notFinished codes runName)
      else
        let s := runHead.jobHeads.foldl (deleteJobHeadIn tbl repoId b) b.storage
        .ok ({ b with storage := b.deleteRunJobs s repoId runHead.runName } :: bs)

/-- `delete_runs(project_name, body)`: the outcome, and the backends as the call left them. -/
def deleteRuns : List String → List (Backend σ S J I B) →
    Except PyError Unit × List (Backend σ S J I B)
  | [], bs => (.ok (), bs)
  | runName :: runNames, bs =>
    match deleteRunIn tbl codes repoId runName bs with
    | .error e => (.error e, bs)
    | .ok bs' => deleteRuns runNames bs'

end Delete

/-- The inner loop of `stop_runs` for one run name: the first backend with a head for the run
stops each of its jobs. -/
def stopRunIn (repoId : String) (abort : Bool) (runName : String) :
    List (Backend σ S J I B) → List (Backend σ S J I B)
  | [] => []
  | b :: bs =>
    match b.getRunHead b.storage repoId runName false with
    | none => b :: stopRunIn repoId abort runName bs
    | some runHead =>
      let s := runHead.jobHeads.foldl
        (fun s jobHead => b.stopJob s repoId jobHead.jobId false abort) b.storage
      { b with storage := s } :: bs

/-- `stop_runs(project_name, body)`. -/
def stopRuns (repoId : String) (abort : Bool) (runNames : List String)
    (bs : List (Backend σ S J I B)) : List (Backend σ S J I B) :=
  runNames.foldl (fun bs runName => stopRunIn repoId abort runName bs) bs

/-! ### `list_runs` and `list_all_runs` -/

/-- A `RunInfo`; `list_all_runs` also sets its `repo`. -/
structure RunInfo (S : Type) where
  project : String
  repoId : String
  backend : String
  runHead : RunHead S
  repo : Option RepoHead

/-- A project as `ProjectManager.list()` returns it, with the backends `get_backends` gives it. -/
structure Project (σ S J I B : Type) where
  name : String
  backends : List (Backend σ S J I B)

/-- `sorted(run_infos, key=lambda x: -x.run_head.submitted_at)`.  Python's `sorted` is a stable
sort, as `List.mergeSort` is. -/
def sortByNewest (runInfos : List (RunInfo S)) : List (RunInfo S) :=
  runInfos.mergeSort fun x y => decide (-x.runHead.submittedAt ≤ -y.runHead.submittedAt)

/-- The loop of `list_runs`: the run heads of each backend in turn. -/
def collectRunInfos (tbl : JobStatusTable S) (projectName repoId : String)
    (runName : Option String) (includeRequestHeads : Bool) (backends : List (Backend σ S J I B)) :
    List (RunInfo S) :=
  backends.flatMap fun b =>
    (b.listRunHeads b.storage repoId runName includeRequestHeads tbl.pending).map
      fun runHead => ⟨projectName, repoId, b.name, runHead, none⟩

/-- `list_runs(project_name, body)`. -/
def listRuns (tbl : JobStatusTable S) (projectName repoId : String) (runName : Option String)
    (includeRequestHeads : Bool) (backends : List (Backend σ S J I B)) : List (RunInfo S) :=
  sortByNewest (collectRunInfos tbl projectName repoId runName includeRequestHeads backends)

/-- The run infos `list_all_runs` gathers: `asyncio.gather` returns the results of its coroutines
in the order they were passed, one per project, backend and repo head. -/
def collectAllRunInfos (tbl : JobStatusTable S) (projects : List (Project σ S J I B)) :
    List (RunInfo S) :=
  projects.flatMap fun project => project.backends.flatMap fun b =>
    (b.listRepoHeads b.storage).flatMap fun repoHead =>
      (b.listRunHeads b.storage repoHead.repoId none false tbl.pending).map
        fun runHead => ⟨project.name, repoHead.repoId, b.name, runHead, some repoHead⟩

/-- `list_all_runs()`. -/
def listAllRuns (tbl : JobStatusTable S) (projects : List (Project σ S J I B)) :
    List (RunInfo S) :=
  sortByNewest (collectAllRunInfos tbl projects)

end Dstack
