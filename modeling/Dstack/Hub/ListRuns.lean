import Dstack.Hub.Runs

/-!
# What the list routes return

`list_runs` and `list_all_runs` collect the run heads every backend lists and sort them by
`-submitted_at`.  Both return a permutation of the listed run heads, each with its project, repo
and backend, newest first, and run heads listed in one order that the sort does not need to swap
stay in that order (`sortByNewest_spec`); the key facts are `List.mergeSort_perm`,
`List.sorted_mergeSort` and `List.pair_sublist_mergeSort`.
-/

namespace Dstack

variable {σ S J I B : Type}

/-- Newest first: each run info comes before every one submitted later. -/
def NewestFirst (runInfos : List (RunInfo S)) : Prop :=
  runInfos.Pairwise fun x y => y.runHead.submittedAt ≤ x.runHead.submittedAt

private theorem newer_trans (a b c : RunInfo S)
    (hab : decide (-a.runHead.submittedAt ≤ -b.runHead.submittedAt))
    (hbc : decide (-b.runHead.submittedAt ≤ -c.runHead.submittedAt)) :
    decide (-a.runHead.submittedAt ≤ -c.runHead.submittedAt) := by
  simp only [decide_eq_true_eq] at *
  omega

private theorem newer_total (a b : RunInfo S) :
    (decide (-a.runHead.submittedAt ≤ -b.runHead.submittedAt) ||
      decide (-b.runHead.submittedAt ≤ -a.runHead.submittedAt)) = true := by
  simp only [Bool.or_eq_true, decide_eq_true_eq]
  omega

/-- The sort keeps every run info, puts the newest first, and never swaps two run infos whose
order already puts the newer first: runs submitted at the same time keep their collected order. -/
theorem sortByNewest_spec (runInfos : List (RunInfo S)) :
    (sortByNewest runInfos).Perm runInfos ∧ NewestFirst (sortByNewest runInfos) ∧
      ∀ x y, [x, y].Sublist runInfos → y.runHead.submittedAt ≤ x.runHead.submittedAt →
        [x, y].Sublist (sortByNewest runInfos) := by
  refine ⟨List.mergeSort_perm _ _, ?_, fun x y hxy hle => ?_⟩
  · exact (List.sorted_mergeSort newer_trans newer_total runInfos).imp fun h => by
      simp only [decide_eq_true_eq] at h; omega
  · refine List.pair_sublist_mergeSort newer_trans newer_total ?_ hxy
    simp only [decide_eq_true_eq]; omega

/-- `list_runs` returns each run head that a backend lists for the request, once, with the project,
the repo and that backend's name, newest first; run heads listed in order (backend order, then
each backend's order) keep it when the sort does not need to swap them. -/
theorem listRuns_spec (tbl : JobStatusTable S) (projectName repoId : String)
    (runName : Option String) (includeRequestHeads : Bool) (backends : List (Backend σ S J I B)) :
    let listedHeads := backends.flatMap fun b =>
      (b.listRunHeads b.storage repoId runName includeRequestHeads tbl.pending).map
        fun runHead => (⟨projectName, repoId, b.name, runHead, none⟩ : RunInfo S)
    let listed := listRuns tbl projectName repoId runName includeRequestHeads backends
    listed.Perm listedHeads ∧ NewestFirst listed ∧
      ∀ x y, [x, y].Sublist listedHeads → y.runHead.submittedAt ≤ x.runHead.submittedAt →
        [x, y].Sublist listed :=
  sortByNewest_spec _

/-- `list_all_runs` returns, newest first, each run head listed for every repo head of every
backend of every project, once, with the project's name, the repo and the backend's name; run
heads gathered in order keep it when the sort does not need to swap them. -/
theorem listAllRuns_spec (tbl : JobStatusTable S) (projects : List (Project σ S J I B)) :
    let listedHeads := projects.flatMap fun project => project.backends.flatMap fun b =>
      (b.listRepoHeads b.storage).flatMap fun repoHead =>
        (b.listRunHeads b.storage repoHead.repoId none false tbl.pending).map
          fun runHead => (⟨project.name, repoHead.repoId, b.name, runHead, some repoHead⟩ : RunInfo S)
    let listed := listAllRuns tbl projects
    listed.Perm listedHeads ∧ NewestFirst listed ∧
      ∀ x y, [x, y].Sublist listedHeads → y.runHead.submittedAt ≤ x.runHead.submittedAt →
        [x, y].Sublist listed :=
  sortByNewest_spec _

end Dstack
