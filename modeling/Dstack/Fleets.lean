import Dstack.Basic

/-!
# The merged profile of a fleet (`core/models/fleets.py`)

The root validator `FleetSpec._merged_profile` copies onto the profile every field of
`ProfileParams` that the configuration sets (is not `None`), then defaults `spot_policy` to
`on-demand` and `retry` to `False`.  It reads and writes the models through `getattr` and
`setattr`, so a model is its `getattr` here.  `ProfileParams` is not among these sources: its
field names are a parameter, and `mergedProfile_spec` holds for every list of them.
-/

namespace Dstack

/-- `SpotPolicy`: `spot`, `on-demand` or `auto`. -/
inductive SpotPolicy where
  | spot
  | onDemand
  | auto
  deriving DecidableEq, Repr

/-- A field value, as far as the merge tells values apart: the defaults it writes are a
`SpotPolicy` and a `bool`, and every other value is only moved. -/
inductive FieldValue where
  | spotPolicy (p : SpotPolicy)
  | bool (b : Bool)
  | other (repr : String)
  deriving DecidableEq, Repr

/-- A pydantic model as the merge reads and writes it: `getattr(model, key, None)`. -/
structure Attrs where
  getattr : String → Option FieldValue

/-- `setattr(model, key, value)`. -/
def Attrs.setattr (m : Attrs) (key : String) (v : FieldValue) : Attrs :=
  ⟨fun k => if k = key then some v else m.getattr k⟩

@[simp] theorem Attrs.getattr_setattr (m : Attrs) (key k : String) (v : FieldValue) :
    (m.setattr key v).getattr k = if k = key then some v else m.getattr k := rfl

/-- `if model.key is None: model.key = d`. -/
def Attrs.setDefault (m : Attrs) (key : String) (d : FieldValue) : Attrs :=
  if m.getattr key = none then m.setattr key d else m

@[simp] theorem Attrs.getattr_setDefault (m : Attrs) (key k : String) (d : FieldValue) :
    (m.setDefault key d).getattr k = if k = key then some ((m.getattr key).getD d) else m.getattr k := by
  unfold setDefault
  by_cases hk : k = key
  · subst hk; cases h : m.getattr k <;> simp [h]
  · split <;> simp [hk]

/-- A default never replaces a value that is set. -/
theorem Attrs.getattr_setDefault_of_some {m : Attrs} {key : String} {v : FieldValue}
    (h : m.getattr key = some v) (k : String) (d : FieldValue) :
    (m.setDefault k d).getattr key = some v := by
  rw [getattr_setDefault]
  split <;> simp_all

/-- The `values` the root validator of `FleetSpec` receives; a field that failed its own
validation is missing. -/
structure FleetSpecValues where
  configuration : Option Attrs
  profile : Option Attrs
  mergedProfile : Option Attrs

/-- The loop `for key in ProfileParams.__fields__` of `_merged_profile`. -/
def copyParams (conf : Attrs) (fields : List String) (merged : Attrs) : Attrs :=
  fields.foldl (fun merged key =>
    match conf.getattr key with
    | some confVal => merged.setattr key confVal
    | none => merged) merged

/-- `FleetSpec._merged_profile(values)`. -/
def mergedProfile (profileParamsFields : List String) (values : FleetSpecValues) :
    Except PyError FleetSpecValues :=
  match values.profile, values.configuration with
  | some profile, some conf =>
    let merged := copyParams conf profileParamsFields profile
    let merged := merged.setDefault "spot_policy" (.spotPolicy .onDemand)
    let merged := merged.setDefault "retry" (.bool false)
    .ok { values with mergedProfile := some merged }
  | _, _ => .error (.valueError "Missing profile or configuration")

theorem copyParams_cons (conf : Attrs) (f : String) (fs : List String) (merged : Attrs) :
    copyParams conf (f :: fs) merged =
      copyParams conf fs (match conf.getattr f with
        | some confVal => merged.setattr f confVal
        | none => merged) := rfl

/-- A field the loop does not copy keeps its value. -/
theorem copyParams_of_not_copied {conf : Attrs} {fields : List String} {key : String}
    (h : key ∉ fields ∨ conf.getattr key = none) (merged : Attrs) :
    (copyParams conf fields merged).getattr key = merged.getattr key := by
  induction fields generalizing merged with
  | nil => rfl
  | cons f fs ih =>
    simp only [List.mem_cons, not_or] at h
    rw [copyParams_cons, ih (h.imp And.right id)]
    split
    · rename_i v hv
      rcases h with ⟨hkf, -⟩ | h
      · simp [hkf]
      · by_cases hkf : key = f
        · subst hkf; rw [h] at hv; cases hv
        · simp [hkf]
    · rfl

/-- A field of the list that the configuration sets is copied. -/
theorem copyParams_of_copied {conf : Attrs} {fields : List String} {key : String} {v : FieldValue}
    (hkey : key ∈ fields) (hv : conf.getattr key = some v) (merged : Attrs) :
    (copyParams conf fields merged).getattr key = some v := by
  induction fields generalizing merged with
  | nil => cases hkey
  | cons f fs ih =>
    rw [copyParams_cons]
    by_cases hfs : key ∈ fs
    · exact ih hfs _
    · obtain rfl : key = f := by simpa [hfs] using hkey
      rw [copyParams_of_not_copied (.inl hfs), hv]
      simp

/-- For every profile and configuration, the merged profile equals the configuration on each
`ProfileParams` field the configuration sets, and the profile on every other field except
`spot_policy` and `retry`; those two, when the configuration leaves them `None`, take the profile's
value, or `on-demand` and `False` when the profile leaves them `None` too. -/
theorem mergedProfile_spec (profileParamsFields : List String) (conf profile : Attrs)
    (merged₀ : Option Attrs) :
    ∃ merged, mergedProfile profileParamsFields ⟨some conf, some profile, merged₀⟩ =
        .ok ⟨some conf, some profile, some merged⟩ ∧
      (∀ key ∈ profileParamsFields, conf.getattr key ≠ none →
        merged.getattr key = conf.getattr key) ∧
      (∀ key, key ∉ profileParamsFields ∨ conf.getattr key = none →
        key ≠ "spot_policy" → key ≠ "retry" → merged.getattr key = profile.getattr key) ∧
      (conf.getattr "spot_policy" = none →
        merged.getattr "spot_policy" = some ((profile.getattr "spot_policy").getD (.spotPolicy .onDemand))) ∧
      (conf.getattr "retry" = none →
        merged.getattr "retry" = some ((profile.getattr "retry").getD (.bool false))) := by
  refine ⟨_, rfl, fun key hkey hconf => ?_, fun key hkey hspot hretry => ?_, fun hspot => ?_,
    fun hretry => ?_⟩
  · obtain ⟨v, hv⟩ := Option.ne_none_iff_exists'.1 hconf
    rw [hv]
    exact Attrs.getattr_setDefault_of_some (Attrs.getattr_setDefault_of_some
      (copyParams_of_copied hkey hv profile) _ _) _ _
  · simp [hspot, hretry, copyParams_of_not_copied hkey]
  · simp [copyParams_of_not_copied (.inr hspot)]
  · simp [copyParams_of_not_copied (.inr hretry)]

end Dstack
