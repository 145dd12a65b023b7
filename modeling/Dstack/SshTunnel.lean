import Dstack.Basic

/-!
# `allocate_local_ports` and `make_ssh_tunnel_args` (cli/commands/run/ssh_tunnel.py)

The port map is collected from the first job only: its `WS_LOGS_PORT` becomes an automatic
entry, then each app spec writes `port ↦ map_to_port`.  The first loop (`checkMapped`) checks the
user's mappings against each other and against the ports in use; the second (`mapAuto`) probes
upward from each automatic entry's declared port.

`port_in_use` binds a socket; it is a parameter here, as is `int()` on a string.  The probe loop
may not terminate on a `port_in_use` that holds from some point on, so `mapAuto` runs each probe
with fuel and `allocateLocalPorts` returns `none` when a probe runs out of it.
-/

namespace Dstack

/-- The fields of an `AppSpec` that `allocate_local_ports` reads. -/
structure AppSpec where
  port : Int
  mapToPort : Option Int
  deriving DecidableEq, Repr

/-- The fields of a `Job` that `allocate_local_ports` reads. -/
structure Job where
  env : Dict String String
  appSpecs : Option (List AppSpec)

/-- The host ports the user asked for, in dict order. -/
def explicitHosts (entries : List (Int × Option Int)) : List Int := entries.filterMap (·.2)

@[simp] theorem explicitHosts_nil : explicitHosts [] = [] := rfl

@[simp] theorem explicitHosts_cons_none (p : Int) (E : List (Int × Option Int)) :
    explicitHosts ((p, none) :: E) = explicitHosts E := rfl

@[simp] theorem explicitHosts_cons_some (p m : Int) (E : List (Int × Option Int)) :
    explicitHosts ((p, some m) :: E) = m :: explicitHosts E := rfl

/-- The host ports given to the automatic entries of `E`, where `R` is what the entries became. -/
def autoHosts : List (Int × Option Int) → List (Int × Int) → List Int
  | (_, none) :: E, (_, q) :: R => q :: autoHosts E R
  | (_, some _) :: E, _ :: R => autoHosts E R
  | _, _ => []

/-! ### Collecting the port map -/

section Collect

variable (toInt : String → Option Int)

/-- The body of `for job in jobs[:1]`. -/
def collectJob (ports : Dict Int (Option Int)) (job : Job) :
    Except PyError (Dict Int (Option Int)) := do
  let ports ← match job.env.get? "WS_LOGS_PORT" with
    | none => pure ports
    | some s =>
      match toInt s with
      | none => throw (.valueError s)
      | some p => pure (ports.set p none)
  pure ((job.appSpecs.getD []).foldl (fun ports app => ports.set app.port app.mapToPort) ports)

/-- The map `ports` that `allocate_local_ports` builds before its two loops. -/
def collectPorts (jobs : List Job) : Except PyError (Dict Int (Option Int)) :=
  (jobs.take 1).foldlM (collectJob toInt) Dict.empty

@[simp] theorem collectPorts_nil : collectPorts toInt [] = .ok Dict.empty := rfl

@[simp] theorem collectPorts_cons (job : Job) (jobs : List Job) :
    collectPorts toInt (job :: jobs) = collectJob toInt Dict.empty job := by
  simp only [collectPorts, List.take, List.foldlM]
  cases collectJob toInt Dict.empty job <;> rfl

/-- `int()` is the only thing that raises while collecting. -/
theorem collectPorts_error {jobs : List Job} {e : PyError}
    (h : collectPorts toInt jobs = .error e) : ∃ s, e = .valueError s := by
  cases jobs with
  | nil => cases h
  | cons job jobs =>
    simp only [collectPorts_cons, collectJob] at h
    split at h
    · cases h
    · split at h
      · exact ⟨_, (Except.error.inj h).symm⟩
      · cases h

/-- Folding `ports[app.port] = app.map_to_port` over the app specs: the last spec with a port
sets its value, and a port no spec names keeps the one it had. -/
theorem get?_foldl_set (apps : List AppSpec) (ports : Dict Int (Option Int)) (p : Int) :
    (apps.foldl (fun ports app => ports.set app.port app.mapToPort) ports).get? p =
      ((apps.reverse.find? (·.port == p)).map (·.mapToPort)).or (ports.get? p) := by
  induction apps generalizing ports with
  | nil => rfl
  | cons a apps ih =>
    rw [List.foldl_cons, ih, Dict.get?_set, List.reverse_cons, List.find?_append,
      List.find?_singleton, Option.map_or', Option.or_assoc]
    by_cases h : a.port = p
    · simp [h]
    · simp [h, Ne.symm h]

/-- The collected map is the first job's: a port's value is the `map_to_port` of the last app spec
with that port, else an automatic entry if it is the job's `WS_LOGS_PORT`; no other port is in it.
The other jobs are never read. -/
theorem collectPorts_get? {job : Job} {jobs : List Job} {ports : Dict Int (Option Int)}
    (h : collectPorts toInt (job :: jobs) = .ok ports) (p : Int) :
    ports.get? p = (((job.appSpecs.getD []).reverse.find? (·.port == p)).map (·.mapToPort)).or
      (if (job.env.get? "WS_LOGS_PORT").bind toInt = some p then some none else none) := by
  simp only [collectPorts_cons, collectJob] at h
  split at h
  · rename_i hws
    cases h
    rw [get?_foldl_set, hws]
    rfl
  · rename_i s hws
    split at h
    · cases h
    · rename_i q hq
      cases h
      rw [get?_foldl_set, hws]
      simp [hq, eq_comm]

theorem collectPorts_get?_of_two_specs :
    ∃ ports, collectPorts (fun s => if s = "10999" then some 10999 else none)
        [⟨Dict.empty.set "WS_LOGS_PORT" "10999", some [⟨22, some 2222⟩, ⟨22, none⟩]⟩] = .ok ports ∧
      ports.get? 22 = ((([⟨22, some 2222⟩, ⟨22, none⟩] : List AppSpec).reverse.find?
          (·.port == 22)).map (·.mapToPort)).or
        (if ((Dict.empty.set "WS_LOGS_PORT" "10999").get? "WS_LOGS_PORT").bind
          (fun s => if s = "10999" then some 10999 else none) = some 22 then some none else none) := by
  refine ⟨_, rfl, ?_⟩
  exact @collectPorts_get? (fun s => if s = "10999" then some 10999 else none)
    ⟨Dict.empty.set "WS_LOGS_PORT" "10999", some [⟨22, some 2222⟩, ⟨22, none⟩]⟩ [] _ rfl 22

end Collect

/-! ### The two loops -/

section Loops

variable (portInUse : Int → Bool)

/-- The first loop: each user mapping must be new and free; `map_to_ports` is returned. -/
def checkMapped : List (Int × Option Int) → List Int → Except PyError (List Int)
  | [], mapToPorts => .ok mapToPorts
  | (_, none) :: rest, mapToPorts => checkMapped rest mapToPorts
  | (port, some m) :: rest, mapToPorts =>
    if m ∈ mapToPorts ∨ portInUse m then
      .error (.portUsed s!"Mapped port {port}:{m} is already in use")
    else checkMapped rest (m :: mapToPorts)

/-- The port `while` of the second loop tests. -/
def portTaken (mapToPorts : List Int) (x : Int) : Bool := decide (x ∈ mapToPorts) || portInUse x

/-- The second loop: each automatic entry gets the first port from its own that is neither chosen
nor in use, each probe running for at most `fuel` tests. -/
def mapAuto (fuel : Nat) : List (Int × Option Int) → List Int → Option (List (Int × Int))
  | [], _ => some []
  | (port, some m) :: rest, mapToPorts => ((port, m) :: ·) <$> mapAuto fuel rest mapToPorts
  | (port, none) :: rest, mapToPorts => do
    let q ← searchUp fuel (portTaken portInUse mapToPorts) port
    ((port, q) :: ·) <$> mapAuto fuel rest (q :: mapToPorts)

theorem mapAuto_cons_some {fuel : Nat} {p m : Int} {E : List (Int × Option Int)} {c : List Int}
    {R : List (Int × Int)} :
    mapAuto portInUse fuel ((p, some m) :: E) c = some R ↔
      ∃ R', mapAuto portInUse fuel E c = some R' ∧ R = (p, m) :: R' := by
  simp only [mapAuto, Option.map_eq_map, Option.map_eq_some']
  exact ⟨fun ⟨R', h, e⟩ => ⟨R', h, e.symm⟩, fun ⟨R', h, e⟩ => ⟨R', h, e.symm⟩⟩

theorem mapAuto_cons_none {fuel : Nat} {p : Int} {E : List (Int × Option Int)} {c : List Int}
    {R : List (Int × Int)} :
    mapAuto portInUse fuel ((p, none) :: E) c = some R ↔
      ∃ q R', searchUp fuel (portTaken portInUse c) p = some q ∧
        mapAuto portInUse fuel E (q :: c) = some R' ∧ R = (p, q) :: R' := by
  simp only [mapAuto, Option.map_eq_map, Option.bind_eq_bind, Option.bind_eq_some,
    Option.map_eq_some']
  exact ⟨fun ⟨q, hq, R', h, e⟩ => ⟨q, R', hq, h, e.symm⟩,
    fun ⟨q, R', hq, h, e⟩ => ⟨q, hq, R', h, e.symm⟩⟩

/-- The second loop only changes values. -/
theorem mapAuto_keys {fuel : Nat} {E : List (Int × Option Int)} {c : List Int}
    {R : List (Int × Int)} (h : mapAuto portInUse fuel E c = some R) :
    R.map Prod.fst = E.map Prod.fst := by
  induction E generalizing c R with
  | nil => cases h; rfl
  | cons e E ih =>
    obtain ⟨p, _ | m⟩ := e
    · obtain ⟨q, R', -, hR', rfl⟩ := (mapAuto_cons_none portInUse).1 h
      simp [ih hR']
    · obtain ⟨R', hR', rfl⟩ := (mapAuto_cons_some portInUse).1 h
      simp [ih hR']

end Loops

/-- `allocate_local_ports(jobs)`: `none` when a probe runs out of `fuel`. -/
def allocateLocalPorts (toInt : String → Option Int) (portInUse : Int → Bool) (fuel : Nat)
    (jobs : List Job) : Option (Except PyError (Dict Int Int)) :=
  match collectPorts toInt jobs with
  | .error e => some (.error e)
  | .ok ports =>
    match checkMapped portInUse ports.entries [] with
    | .error e => some (.error e)
    | .ok mapToPorts =>
      match h : mapAuto portInUse fuel ports.entries mapToPorts with
      | none => none
      | some R => some (.ok ⟨R, by rw [mapAuto_keys portInUse h]; exact ports.nodup⟩)

end Dstack
