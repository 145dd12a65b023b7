import Dstack.Hub.Runs

/-!
# What `delete_runs` leaves behind when it raises

`delete_runs` handles the named runs one after another and checks each run only when it reaches
it: a finished run named first is deleted before an unfinished run named after it raises, and the
raise undoes nothing.  `deleteRuns_raise` says exactly this: the backends are left as deleting the
runs named before the unfinished one leaves them, and the unfinished run is the one whose first run
head says so.  Within one run nothing changes before the check (`deleteRunIn_error`).
-/

namespace Dstack

variable {σ S J I B : Type}

/-- The run head of the first backend that has one for the run: the one `delete_runs` acts on. -/
def firstRunHead (repoId : String) (backends : List (Backend σ S J I B)) (runName : String) :
    Option (RunHead S) :=
  backends.findSome? fun b => b.getRunHead b.storage repoId runName false

variable [DecidableEq S] (tbl : JobStatusTable S) (codes : ErrorCodes) (repoId : String)

/-- The inner loop raises only when the first run head found is unfinished. -/
theorem deleteRunIn_error {runName : String} {backends : List (Backend σ S J I B)} {e : PyError}
    (h : deleteRunIn tbl codes repoId runName backends = .error e) :
    e = notFinished codes runName ∧
      ∃ runHead, firstRunHead repoId backends runName = some runHead ∧
        tbl.isUnfinished runHead.status = true := by
  induction backends with
  | nil => cases h
  | cons b bs ih =>
    unfold deleteRunIn at h
    unfold firstRunHead
    rw [List.findSome?_cons]
    split at h
    · rename_i hb
      rw [hb]
      cases hrec : deleteRunIn tbl codes repoId runName bs with
      | error e' => rw [hrec] at h; cases h; exact ih hrec
      | ok bs' => rw [hrec] at h; cases h
    · rename_i runHead hb
      rw [hb]
      split at h
      · cases h; exact ⟨rfl, runHead, rfl, ‹_›⟩
      · cases h

/-- When `delete_runs` raises, it raised at an unfinished run `r` of the request, and the backends
are exactly as deleting the runs named before `r` leaves them: nothing of `r` or of the runs named
after it is stopped or deleted, and nothing deleted before is restored. -/
theorem deleteRuns_raise {runNames : List String} {backends backends' : List (Backend σ S J I B)}
    {e : PyError} (h : deleteRuns tbl codes repoId runNames backends = (.error e, backends')) :
    ∃ pre r post, runNames = pre ++ r :: post ∧
      deleteRuns tbl codes repoId pre backends = (.ok (), backends') ∧ e = notFinished codes r ∧
      ∃ runHead, firstRunHead repoId backends' r = some runHead ∧
        tbl.isUnfinished runHead.status = true := by
  induction runNames generalizing backends with
  | nil => cases h
  | cons r rs ih =>
    unfold deleteRuns at h
    split at h
    · rename_i e' he'
      cases h
      obtain ⟨rfl, hhead⟩ := deleteRunIn_error tbl codes repoId he'
      exact ⟨[], r, rs, rfl, rfl, rfl, hhead⟩
    · rename_i bs1 hbs1
      obtain ⟨pre, r', post, rfl, hpre, he, hhead⟩ := ih h
      refine ⟨r :: pre, r', post, rfl, ?_, he, hhead⟩
      simp only [deleteRuns, hbs1, hpre]

/-- A backend whose storage is its list of job heads; a run is unfinished while one of its jobs
is `running`. -/
def headsBackend (heads : List (JobHead String)) :
    Backend (List (JobHead String)) String Unit Unit Unit where
  name := "local"
  type := "local"
  storage := heads
  listRepoHeads _ := []
  listJobHeads s _ := s
  listRunHeads _ _ _ _ _ := []
  getRunHead s _ runName _ :=
    match s.filter (·.runName == runName) with
    | [] => none
    | jh :: jhs =>
      some ⟨runName, if (jh :: jhs).any (·.status == "running") then "running" else "done",
        jh :: jhs, 0⟩
  stopJob s _ _ _ _ := s
  deleteJobHead s _ jobId := s.filter (·.jobId != jobId)
  deleteRunJobs s _ _ := s
  predictInstanceType _ := none
  predictBuildPlan _ := .ok ()

/-- Job statuses as strings: `running` is the unfinished one. -/
def runningUnfinished : JobStatusTable String := ⟨"pending", "stopped", (· == "running")⟩

/-- One backend holding a finished run `a` and a running run `b`. -/
def finishedAThenRunningB : List (Backend (List (JobHead String)) String Unit Unit Unit) :=
  [headsBackend [⟨"1", "a", "done"⟩, ⟨"2", "b", "running"⟩]]

theorem deleteRuns_raise_at_b :
    ∃ pre r post, ["a", "b"] = pre ++ r :: post ∧
      deleteRuns runningUnfinished ⟨"", ""⟩ "repo" pre finishedAThenRunningB =
        (.ok (), (deleteRuns runningUnfinished ⟨"", ""⟩ "repo" ["a", "b"] finishedAThenRunningB).2) ∧
      notFinished ⟨"", ""⟩ "b" = notFinished ⟨"", ""⟩ r ∧
      ∃ runHead, firstRunHead "repo"
          (deleteRuns runningUnfinished ⟨"", ""⟩ "repo" ["a", "b"] finishedAThenRunningB).2 r =
            some runHead ∧ runningUnfinished.isUnfinished runHead.status = true :=
  deleteRuns_raise runningUnfinished ⟨"", ""⟩ "repo" (Prod.ext rfl rfl)

/-- `delete_runs` on a finished run `a` and then a running run `b`: it raises on `b` after the
head of `a` is gone. -/
theorem deleteRuns_deletes_before_raising :
    (deleteRuns runningUnfinished ⟨"", ""⟩ "repo" ["a", "b"] finishedAThenRunningB).1 =
      .error (notFinished ⟨"", ""⟩ "b") ∧
    (deleteRuns runningUnfinished ⟨"", ""⟩ "repo" ["a", "b"] finishedAThenRunningB).2.map
      (·.storage) ≠ finishedAThenRunningB.map (·.storage) :=
  ⟨rfl, by decide⟩

end Dstack
