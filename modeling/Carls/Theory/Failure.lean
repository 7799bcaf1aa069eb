import Carls.Theory.Isolation

/-!
# What a Failed Update Leaves

`Update` can fail at three points, and each leaves the registry in a state the
failure's status identifies.

The argument checks come before anything else and leave the registry
untouched. The start of the session can fail at either factory, and leaves
only the entries it added for the handle. The gradient branch can fail before
it writes anything (no optimizer, a short lookup result, no valid key, an
empty answer from the optimizer), and leaves the registry exactly as the
values branch left it: the store overwritten with the request's values, and
no vector derived from a gradient. The write-back of step three is the only
write of the gradient branch, so it happens entirely or not at all.

The three kinds of failure have disjoint statuses: the argument checks report
`INVALID_ARGUMENT`, the others `INTERNAL`, and the start and the gradient
branch never share a message. `failure_kinds_exclusive` is that fact, so the
status alone says which of the three descriptions applies.

## Main definitions

* `ArgumentFailure`, `StartFailure`, `GradientFailure`: The statuses of each
  kind of failure.

## Theorems

* `gradientsSection_failure`: A failed gradient branch writes nothing.
* `failure_kinds_exclusive`: No status is of two kinds.
* `update_failure`: What each kind of failure of `Update` leaves.
* `lookupSection_cases`: What `Lookup`'s section can answer.
* `lookup_failure`: What each kind of failure of `Lookup` leaves.
-/

namespace Carls

/-- The status of a failed argument check. -/
def ArgumentFailure (st : Status) : Prop := st.code = .invalidArgument

/-- The statuses `StartSessionIfNecessary` fails with (lines 194 and 204). -/
def StartFailure (st : Status) : Prop :=
  st = Status.knowledgeBankFailed ∨ st = Status.optimizerFailed

/-- The statuses the gradient branch fails with (lines 135–168). -/
def GradientFailure (st : Status) : Prop :=
  st = Status.optimizerNotCreated ∨ st = Status.inconsistentResult ∨ st = Status.noValidKeys ∨
    ∃ errorMsg, st = Status.applyFailed errorMsg

/-- The optimizer's failure message never reads as a failed start: the
    messages differ in their first letter. -/
theorem applyFailed_not_startFailure (errorMsg : String) :
    ¬StartFailure (Status.applyFailed errorMsg) := by
  rintro (e | e) <;>
    simpa [Status.applyFailed, Status.knowledgeBankFailed, Status.optimizerFailed] using
      congrArg (fun st : Status => st.message.data.head?) e

/-- No status is of two kinds. -/
theorem failure_kinds_exclusive (st : Status) :
    (ArgumentFailure st → ¬StartFailure st ∧ ¬GradientFailure st) ∧
    (StartFailure st → ¬GradientFailure st) := by
  refine ⟨fun ha => ⟨?_, ?_⟩, fun hs => ?_⟩
  · rintro (rfl | rfl) <;> simp [ArgumentFailure, Status.knowledgeBankFailed,
      Status.optimizerFailed] at ha
  · rintro (rfl | rfl | rfl | ⟨m, rfl⟩) <;> simp [ArgumentFailure, Status.optimizerNotCreated,
      Status.inconsistentResult, Status.noValidKeys, Status.applyFailed] at ha
  · rintro (rfl | rfl | rfl | ⟨m, rfl⟩)
    · rcases hs with e | e <;> simp [Status.optimizerNotCreated, Status.knowledgeBankFailed,
        Status.optimizerFailed] at e
    · rcases hs with e | e <;> simp [Status.inconsistentResult, Status.knowledgeBankFailed,
        Status.optimizerFailed] at e
    · rcases hs with e | e <;> simp [Status.noValidKeys, Status.knowledgeBankFailed,
        Status.optimizerFailed] at e
    · exact applyFailed_not_startFailure m hs

section Failure

variable {K G σ ω V : Type} {b : Backend K G σ ω V}

/-- A gradient branch that fails reports a gradient failure and returns the
    registry it was given. -/
theorem gradientsSection_failure {reg : Registry σ ω} {request : UpdateRequest V}
    {r : Reply Unit σ ω} (hr : gradientsSection b reg request = some r)
    (hst : r.status.code ≠ .ok) : GradientFailure r.status ∧ r.registry = reg := by
  rcases gradientsSection_cases hr with ⟨e, hf⟩ | ⟨e, -⟩
  · exact ⟨hf, e⟩
  · exact absurd (by rw [e]; rfl) hst

/-- What the values branch leaves: the registry it was given when there are
    no values, and otherwise that registry with the handle's store after
    `BatchUpdate` of the values. -/
theorem writeValues_cases {reg reg' : Registry σ ω} {request : UpdateRequest V}
    (hw : writeValues b reg request = some reg') :
    (request.values.keys = [] ∧ reg' = reg) ∨
    ∃ kb, reg.esMap.lookup request.sessionHandle = some kb ∧
      reg' = reg.setStore request.sessionHandle
        (b.batchUpdate kb request.values.keys request.values.values) := by
  unfold writeValues at hw
  split_ifs at hw with hv
  · exact .inl ⟨hv, (Option.some.inj hw).symm⟩
  · obtain ⟨kb, hkb, rfl⟩ := Option.map_eq_some'.mp hw
    exact .inr ⟨kb, hkb, rfl⟩

theorem lookupReply_status_cases (keys : List String) (rs : List (V ⊕ String))
    (reg : Registry σ ω) :
    (lookupReply keys rs reg).status = Status.OK ∨
      (lookupReply keys rs reg).status = Status.inconsistentResult := by
  unfold lookupReply
  split_ifs
  · exact .inr rfl
  · exact .inl rfl

theorem lookupReply_registry (keys : List String) (rs : List (V ⊕ String)) (reg : Registry σ ω) :
    (lookupReply keys rs reg).registry = reg := by
  unfold lookupReply
  split_ifs <;> rfl

/-- `Lookup`'s section answers `OK` or reports a result of the wrong size, and
    a pure lookup writes nothing. -/
theorem lookupSection_cases {reg : Registry σ ω} {request : LookupRequest}
    {r : Reply (LookupResponse V) σ ω} (hr : lookupSection b reg request = some r) :
    (r.status = Status.OK ∨ r.status = Status.inconsistentResult) ∧
    (request.update = false → r.registry = reg) := by
  obtain ⟨kb, -, rfl⟩ := Option.map_eq_some'.mp hr
  refine ⟨?_, fun hu => ?_⟩
  · split_ifs <;> exact lookupReply_status_cases _ _ _
  · rw [if_neg (by simp [hu])]
    exact lookupReply_registry _ _ _

end Failure

/-- When `Update` fails, its status says which of three things happened, and
    the registry shows it: a failed argument check changed nothing; a failed
    start only added missing entries for the handle; a failed gradient branch
    left the registry exactly as the values branch wrote it after the start:
    the registry the start left, with the handle's store after `BatchUpdate`
    of the request's values when there are any, and no gradient applied. No
    status is of two kinds. -/
theorem update_failure {K G σ ω V : Type} (b : Backend K G σ ω V) (reg : Registry σ ω)
    (request : UpdateRequest V) {r : Reply Unit σ ω} (hr : update b reg request = some r)
    (hst : r.status.code ≠ .ok) :
    ((ArgumentFailure r.status ∧ r.registry = reg) ∨
      (StartFailure r.status ∧ reg.AddsOnly request.sessionHandle r.registry) ∨
      (GradientFailure r.status ∧
        writeValues b (startSessionIfNecessary b reg request.sessionHandle).2 request =
          some r.registry ∧
        ((request.values.keys = [] ∧
            r.registry = (startSessionIfNecessary b reg request.sessionHandle).2) ∨
          ∃ kb, (startSessionIfNecessary b reg request.sessionHandle).2.esMap.lookup
              request.sessionHandle = some kb ∧
            r.registry = (startSessionIfNecessary b reg request.sessionHandle).2.setStore
              request.sessionHandle
              (b.batchUpdate kb request.values.keys request.values.values)))) ∧
    (ArgumentFailure r.status → ¬StartFailure r.status ∧ ¬GradientFailure r.status) ∧
    (StartFailure r.status → ¬GradientFailure r.status) := by
  refine ⟨?_, failure_kinds_exclusive r.status⟩
  simp only [update] at hr
  split_ifs at hr with he hi hok
  · cases hr; exact .inl ⟨rfl, rfl⟩
  · cases hr; exact .inl ⟨rfl, rfl⟩
  · -- The start succeeded; the values branch ran, then the gradient branch failed.
    obtain ⟨reg₁, h₁, hr⟩ := Option.bind_eq_some.mp hr
    refine .inr (.inr ?_)
    unfold writeGradients at hr
    split_ifs at hr
    · cases hr; exact absurd rfl hst
    · obtain ⟨hg, rfl⟩ := gradientsSection_failure hr hst
      exact ⟨hg, h₁, writeValues_cases h₁⟩
  · cases hr
    refine .inr (.inl ⟨?_, addsOnly_startSessionIfNecessary b reg _⟩)
    rcases startSessionIfNecessary_status b reg request.sessionHandle with e | e | e
    · exact absurd (by rw [e]; rfl) hok
    · exact .inl e
    · exact .inr e

/-- An update of session `emb` that writes a value for one key and has a
    gradient only for another, which its store lacks. -/
def missingGradient : UpdateRequest Int :=
  ⟨"emb", (∅ : ProtoMap Int).insert "first" 2, (∅ : ProtoMap Int).insert "second" 1⟩

/-- The registry `missingGradient` leaves on a fresh service: the session
    started, and its store holding the written value. -/
def missingGradientRegistry : Registry (String → Option Int) Unit :=
  let started := (startSessionIfNecessary (exampleBackend fun _ _ => some ()) Registry.empty "emb").2
  (writeValues (exampleBackend fun _ _ => some ()) started missingGradient).getD Registry.empty

-- The written value stays in the store.
example : (missingGradientRegistry.esMap.lookup "emb").map (· "first") = some (some 2) := rfl

/-- On a fresh service, `missingGradient` fails in the gradient branch: the
    session is started, the value is written, and no key of the gradient map
    has a vector. -/
theorem update_failure_missingGradient :
    update (exampleBackend fun _ _ => some ()) Registry.empty missingGradient =
      some ⟨Status.noValidKeys, (), missingGradientRegistry⟩ ∧
    Status.noValidKeys.code ≠ .ok ∧
    ((ArgumentFailure Status.noValidKeys ∧ missingGradientRegistry = Registry.empty) ∨
      (StartFailure Status.noValidKeys ∧ Registry.empty.AddsOnly "emb" missingGradientRegistry) ∨
      (GradientFailure Status.noValidKeys ∧
        writeValues (exampleBackend fun _ _ => some ())
          (startSessionIfNecessary (exampleBackend fun _ _ => some ()) Registry.empty "emb").2
          missingGradient = some missingGradientRegistry ∧
        ((missingGradient.values.keys = [] ∧ missingGradientRegistry =
            (startSessionIfNecessary (exampleBackend fun _ _ => some ()) Registry.empty "emb").2) ∨
          ∃ kb, (startSessionIfNecessary (exampleBackend fun _ _ => some ()) Registry.empty
              "emb").2.esMap.lookup "emb" = some kb ∧
            missingGradientRegistry = (startSessionIfNecessary (exampleBackend fun _ _ => some ())
              Registry.empty "emb").2.setStore "emb"
              ((exampleBackend fun _ _ => some ()).batchUpdate kb missingGradient.values.keys
                missingGradient.values.values)))) ∧
    (ArgumentFailure Status.noValidKeys →
      ¬StartFailure Status.noValidKeys ∧ ¬GradientFailure Status.noValidKeys) ∧
    (StartFailure Status.noValidKeys → ¬GradientFailure Status.noValidKeys) :=
  have hr : update (exampleBackend fun _ _ => some ()) Registry.empty missingGradient =
      some ⟨Status.noValidKeys, (), missingGradientRegistry⟩ := rfl
  ⟨hr, by decide, update_failure _ Registry.empty missingGradient hr (by decide)⟩

/-- When `Lookup` fails, its status says which of three things happened, and
    the registry shows it: a failed argument check changed nothing; a failed
    start only added missing entries for the handle; a result of the wrong
    size from the store is reported after the section ran, so the registry
    is the start's up to the state of the session's store, and a pure lookup
    leaves it exactly as the start left it. A lookup with update that fails
    so keeps the keys the store created. No status is of two kinds. -/
theorem lookup_failure {K G σ ω V : Type} (b : Backend K G σ ω V) (reg : Registry σ ω)
    (request : LookupRequest) {r : Reply (LookupResponse V) σ ω}
    (hr : lookup b reg request = some r) (hst : r.status.code ≠ .ok) :
    ((ArgumentFailure r.status ∧ r.registry = reg) ∨
    (StartFailure r.status ∧ reg.AddsOnly request.sessionHandle r.registry) ∨
    (r.status = Status.inconsistentResult ∧
      (startSessionIfNecessary b reg request.sessionHandle).2.StoreWrite request.sessionHandle
        r.registry ∧
      (request.update = false →
        r.registry = (startSessionIfNecessary b reg request.sessionHandle).2))) ∧
    (ArgumentFailure r.status → ¬StartFailure r.status ∧ r.status ≠ Status.inconsistentResult) ∧
    (StartFailure r.status → r.status ≠ Status.inconsistentResult) := by
  obtain ⟨hex₁, hex₂⟩ := failure_kinds_exclusive r.status
  refine ⟨?_, fun ha => ⟨(hex₁ ha).1, fun e => (hex₁ ha).2 (.inr (.inl e))⟩,
    fun hs e => hex₂ hs (.inr (.inl e))⟩
  simp only [lookup] at hr
  split_ifs at hr with he hk hok
  · cases hr; exact .inl ⟨rfl, rfl⟩
  · cases hr; exact .inl ⟨rfl, rfl⟩
  · -- The start succeeded, and the section answered with the wrong size.
    obtain ⟨hs, hreg⟩ := lookupSection_cases hr
    exact .inr (.inr ⟨hs.resolve_left fun e => hst (by rw [e]; rfl),
      lookupSection_registry hr, hreg⟩)
  · cases hr
    refine .inr (.inl ⟨?_, addsOnly_startSessionIfNecessary b reg _⟩)
    rcases startSessionIfNecessary_status b reg request.sessionHandle with e | e | e
    · exact absurd (by rw [e]; rfl) hok
    · exact .inl e
    · exact .inr e

/-- `okBackend` with a store whose `BatchLookup` returns no results. -/
def shortBackend : Backend Unit Unit (String → Option Int) Unit Int :=
  { okBackend with batchLookup := fun _ _ => [] }

/-- A pure lookup on `shortBackend` gets a result of the wrong size: it fails
    after its section, with the registry its start left. -/
theorem lookup_failure_shortStore :
    lookup shortBackend Registry.empty ⟨"emb", ["a"], false⟩ =
      some ⟨Status.inconsistentResult, ⟨∅⟩,
        (startSessionIfNecessary shortBackend Registry.empty "emb").2⟩ ∧
    Status.inconsistentResult.code ≠ .ok ∧
    ((ArgumentFailure Status.inconsistentResult ∧
        (startSessionIfNecessary shortBackend Registry.empty "emb").2 = Registry.empty) ∨
      (StartFailure Status.inconsistentResult ∧ (Registry.empty : Registry (String → Option Int)
        Unit).AddsOnly "emb" (startSessionIfNecessary shortBackend Registry.empty "emb").2) ∨
      (Status.inconsistentResult = Status.inconsistentResult ∧
        (startSessionIfNecessary shortBackend Registry.empty "emb").2.StoreWrite "emb"
          (startSessionIfNecessary shortBackend Registry.empty "emb").2 ∧
        (false = false → (startSessionIfNecessary shortBackend Registry.empty "emb").2 =
          (startSessionIfNecessary shortBackend Registry.empty "emb").2))) ∧
    (ArgumentFailure Status.inconsistentResult →
      ¬StartFailure Status.inconsistentResult ∧
        Status.inconsistentResult ≠ Status.inconsistentResult) ∧
    (StartFailure Status.inconsistentResult →
      Status.inconsistentResult ≠ Status.inconsistentResult) :=
  have hr : lookup shortBackend Registry.empty ⟨"emb", ["a"], false⟩ =
      some ⟨Status.inconsistentResult, ⟨∅⟩,
        (startSessionIfNecessary shortBackend Registry.empty "emb").2⟩ := rfl
  ⟨hr, by decide, lookup_failure shortBackend Registry.empty _ hr (by decide)⟩

end Carls
