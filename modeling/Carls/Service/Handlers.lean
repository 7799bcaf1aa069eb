import Carls.Service.Sections

/-!
# The RPC Handlers

`StartSession`, `Lookup`, `Update` and `KnowledgeBankSize` as the service runs
them when no other request interleaves: the argument checks, then
`StartSessionIfNecessary`, then the handler's lock-held sections in order.
`Concurrent.Threads` runs the same sections one atomic step at a time.

A handler returns `none` when it dereferences a missing map entry. Only
`Lookup` and `Update` could, after `StartSessionIfNecessary`, and
`isSome_serve` shows that they never do: a start that returns `OK` leaves the
handle a store, and no section removes one.

`serve` dispatches a `Request` to its handler, and `serveAll` serves a list of
requests one after another. A registry is reachable when some list of
requests, served from the constructor's empty state, leaves it;
`serveAll_induction` is the induction principle every invariant of the
sequential service is proved with.

## Main definitions

* `startSession`, `lookup`, `update`: The handlers.
* `writeValues`, `writeGradients`: The two branches of `update`, each skipped
  on an empty map.
* `Request`, `Response`, `serve`: One request of any kind.
* `serveAll`, `Reachable`: Runs of requests.

## Theorems

* `serveAll_append`: A run split at an intermediate request.
* `serveAll_induction`: A property kept by every request holds after a run.
* `serve_registry`: A request only adds entries for its handle and writes its
  store.
* `isSome_serve`: No request dereferences a missing entry.
-/

namespace Carls

namespace Status

/-- Line 40. -/
def nameEmpty : Status := ⟨.invalidArgument, "Name is empty."⟩

/-- Lines 55 and 94. -/
def sessionHandleEmpty : Status := ⟨.invalidArgument, "session_handle is empty."⟩

/-- Line 58. -/
def emptyInputKeys : Status := ⟨.invalidArgument, "Empty input keys."⟩

/-- Line 97. -/
def inputEmpty : Status := ⟨.invalidArgument, "input is empty."⟩

end Status

/-- The same reply with its response mapped. -/
def Reply.mapResponse {R R' σ ω : Type} (f : R → R') (r : Reply R σ ω) : Reply R' σ ω :=
  ⟨r.status, f r.response, r.registry⟩

@[simp] theorem Reply.mapResponse_status {R R' σ ω : Type} (f : R → R') (r : Reply R σ ω) :
    (r.mapResponse f).status = r.status := rfl

@[simp] theorem Reply.mapResponse_registry {R R' σ ω : Type} (f : R → R') (r : Reply R σ ω) :
    (r.mapResponse f).registry = r.registry := rfl

/-- A request of any kind. -/
inductive Request (K G V : Type) where
  | startSession (request : StartSessionRequest K G)
  | lookup (request : LookupRequest)
  | update (request : UpdateRequest V)
  | knowledgeBankSize

/-- A response of any kind. -/
inductive Response (V : Type) where
  | startSession (sessionHandle : String)
  | lookup (response : LookupResponse V)
  | update
  | knowledgeBankSize (size : Nat)

section Handlers

variable {K G σ ω V : Type} (b : Backend K G σ ω V)

/-- `StartSession` (lines 36–49). It dereferences no entry, so it is total. -/
def startSession (reg : Registry σ ω) (request : StartSessionRequest K G) :
    Reply String σ ω :=
  if request.name = "" then ⟨Status.nameEmpty, "", reg⟩
  else
    let sessionHandle := b.serializeAsString request
    let started := startSessionIfNecessary b reg sessionHandle
    if started.1.code = .ok then ⟨Status.OK, sessionHandle, started.2⟩
    else ⟨started.1, "", started.2⟩

/-- `Lookup` (lines 51–88). -/
def lookup (reg : Registry σ ω) (request : LookupRequest) :
    Option (Reply (LookupResponse V) σ ω) :=
  if request.sessionHandle = "" then some ⟨Status.sessionHandleEmpty, ⟨∅⟩, reg⟩
  else if request.key = [] then some ⟨Status.emptyInputKeys, ⟨∅⟩, reg⟩
  else
    let started := startSessionIfNecessary b reg request.sessionHandle
    if started.1.code = .ok then lookupSection b started.2 request
    else some ⟨started.1, ⟨∅⟩, started.2⟩

/-- Lines 104–116: the values branch, skipped when the map is empty. -/
def writeValues (reg : Registry σ ω) (request : UpdateRequest V) : Option (Registry σ ω) :=
  if request.values.keys = [] then some reg else valuesSection b reg request

/-- Lines 118–175: the gradient branch, skipped when the map is empty. -/
def writeGradients (reg : Registry σ ω) (request : UpdateRequest V) :
    Option (Reply Unit σ ω) :=
  if request.gradients.keys = [] then some ⟨Status.OK, (), reg⟩
  else gradientsSection b reg request

/-- `Update` (lines 90–176): the values branch, then the gradient branch, each
    in its own writer-locked section. -/
def update (reg : Registry σ ω) (request : UpdateRequest V) : Option (Reply Unit σ ω) :=
  if request.sessionHandle = "" then some ⟨Status.sessionHandleEmpty, (), reg⟩
  else if request.values.keys = [] ∧ request.gradients.keys = [] then
    some ⟨Status.inputEmpty, (), reg⟩
  else
    let started := startSessionIfNecessary b reg request.sessionHandle
    if started.1.code = .ok then
      (writeValues b started.2 request).bind fun reg => writeGradients b reg request
    else some ⟨started.1, (), started.2⟩

/-- One request, served by its handler. `KnowledgeBankSize` (lines 178–181)
    only reads. -/
def serve (reg : Registry σ ω) : Request K G V → Option (Reply (Response V) σ ω)
  | .startSession r => some ((startSession b reg r).mapResponse .startSession)
  | .lookup r => (lookup b reg r).map (·.mapResponse .lookup)
  | .update r => (update b reg r).map (·.mapResponse fun _ => .update)
  | .knowledgeBankSize => some ⟨Status.OK, .knowledgeBankSize reg.knowledgeBankSize, reg⟩

/-- The handle a request addresses; for `StartSession`, the serialized request. -/
def Request.sessionHandle : Request K G V → Option String
  | .startSession r => some (b.serializeAsString r)
  | .lookup r => some r.sessionHandle
  | .update r => some r.sessionHandle
  | .knowledgeBankSize => none

/-- Requests served one after another, from `reg`. -/
def serveAll (reg : Registry σ ω) : List (Request K G V) → Option (Registry σ ω)
  | [] => some reg
  | rq :: rqs => (serve b reg rq).bind fun r => serveAll r.registry rqs

/-- A registry some run of requests leaves, starting from the constructor's. -/
def Reachable (reg : Registry σ ω) : Prop :=
  ∃ rqs, serveAll b Registry.empty rqs = some reg

theorem serveAll_append (reg : Registry σ ω) (rqs rqs' : List (Request K G V)) :
    serveAll b reg (rqs ++ rqs') = (serveAll b reg rqs).bind fun reg => serveAll b reg rqs' := by
  induction rqs generalizing reg with
  | nil => rfl
  | cons rq rqs ih =>
    simp only [List.cons_append, serveAll]
    cases serve b reg rq <;> simp [ih]

/-- A property that every served request keeps holds after every run. -/
theorem serveAll_induction {P : Registry σ ω → Prop}
    (step : ∀ reg rq r, P reg → serve b reg rq = some r → P r.registry) :
    ∀ (rqs : List (Request K G V)) (reg reg' : Registry σ ω),
      P reg → serveAll b reg rqs = some reg' → P reg'
  | [], _, _, hp, h => by cases h; exact hp
  | rq :: rqs, reg, reg', hp, h => by
    obtain ⟨r, hr, h⟩ := Option.bind_eq_some.mp h
    exact serveAll_induction step rqs r.registry reg' (step reg rq r hp hr) h

theorem Reachable.serve {reg : Registry σ ω} (hr : Reachable b reg) {rq : Request K G V}
    {r : Reply (Response V) σ ω} (hs : serve b reg rq = some r) : Reachable b r.registry := by
  obtain ⟨rqs, h⟩ := hr
  exact ⟨rqs ++ [rq], by simp [serveAll_append, h, serveAll, hs]⟩

/-- What a handler on `h` leaves: the registry it was given, or the one
    `StartSessionIfNecessary` left, up to a new state of the store of `h`. -/
def HandlerEffect (h : String) (reg reg' : Registry σ ω) : Prop :=
  ∃ reg₁, (reg₁ = reg ∨ reg₁ = (startSessionIfNecessary b reg h).2) ∧ reg₁.StoreWrite h reg'

variable {b}

theorem HandlerEffect.of_startSessionIfNecessary {h : String} {reg reg' : Registry σ ω}
    (hw : (startSessionIfNecessary b reg h).2.StoreWrite h reg') : HandlerEffect b h reg reg' :=
  ⟨_, .inr rfl, hw⟩

theorem HandlerEffect.refl (h : String) (reg : Registry σ ω) : HandlerEffect b h reg reg :=
  ⟨reg, .inl rfl, .refl h reg⟩

/-- A handler on `h` leaves every other handle's entries as they were. -/
theorem HandlerEffect.slot_ne {h h' : String} {reg reg' : Registry σ ω}
    (he : HandlerEffect b h reg reg') (hne : h' ≠ h) : reg'.slot h' = reg.slot h' := by
  obtain ⟨reg₁, rfl | rfl, hw⟩ := he
  · exact hw.slot_ne hne
  · exact (hw.slot_ne hne).trans ((addsOnly_startSessionIfNecessary b _ h).slot_ne hne)

theorem writeValues_registry {reg reg' : Registry σ ω} {request : UpdateRequest V}
    (hr : writeValues b reg request = some reg') :
    reg.StoreWrite request.sessionHandle reg' := by
  unfold writeValues at hr
  split_ifs at hr
  · cases hr; exact .refl _ _
  · exact valuesSection_registry hr

theorem writeGradients_registry {reg : Registry σ ω} {request : UpdateRequest V}
    {r : Reply Unit σ ω} (hr : writeGradients b reg request = some r) :
    reg.StoreWrite request.sessionHandle r.registry := by
  unfold writeGradients at hr
  split_ifs at hr
  · cases hr; exact .refl _ _
  · exact gradientsSection_registry hr

theorem startSession_registry (reg : Registry σ ω) (request : StartSessionRequest K G) :
    HandlerEffect b (b.serializeAsString request) reg (startSession b reg request).registry := by
  simp only [startSession]
  split_ifs
  · exact .refl _ reg
  all_goals exact .of_startSessionIfNecessary (.refl _ _)

theorem lookup_registry {reg : Registry σ ω} {request : LookupRequest}
    {r : Reply (LookupResponse V) σ ω} (hr : lookup b reg request = some r) :
    HandlerEffect b request.sessionHandle reg r.registry := by
  simp only [lookup] at hr
  split_ifs at hr
  · cases hr; exact .refl _ reg
  · cases hr; exact .refl _ reg
  · exact .of_startSessionIfNecessary (lookupSection_registry hr)
  · cases hr; exact .of_startSessionIfNecessary (.refl _ _)

theorem update_registry {reg : Registry σ ω} {request : UpdateRequest V}
    {r : Reply Unit σ ω} (hr : update b reg request = some r) :
    HandlerEffect b request.sessionHandle reg r.registry := by
  simp only [update] at hr
  split_ifs at hr
  · cases hr; exact .refl _ reg
  · cases hr; exact .refl _ reg
  · obtain ⟨reg₁, h₁, hr⟩ := Option.bind_eq_some.mp hr
    exact .of_startSessionIfNecessary
      ((writeValues_registry h₁).trans (writeGradients_registry hr))
  · cases hr; exact .of_startSessionIfNecessary (.refl _ _)

/-- Every request on a session leaves a `HandlerEffect` on it, and
    `KnowledgeBankSize` leaves the registry as it was. -/
theorem serve_registry {reg : Registry σ ω} {rq : Request K G V}
    {r : Reply (Response V) σ ω} (hr : serve b reg rq = some r) :
    (∀ h, rq.sessionHandle b = some h → HandlerEffect b h reg r.registry) ∧
    (rq.sessionHandle b = none → r.registry = reg) := by
  cases rq with
  | startSession request =>
    cases hr
    exact ⟨fun h hh => by cases hh; exact startSession_registry reg request, nofun⟩
  | lookup request =>
    obtain ⟨r', hr', rfl⟩ := Option.map_eq_some'.mp hr
    exact ⟨fun h hh => by cases hh; exact lookup_registry hr', nofun⟩
  | update request =>
    obtain ⟨r', hr', rfl⟩ := Option.map_eq_some'.mp hr
    exact ⟨fun h hh => by cases hh; exact update_registry hr', nofun⟩
  | knowledgeBankSize =>
    cases hr
    exact ⟨nofun, fun _ => rfl⟩

theorem isSome_writeValues {reg : Registry σ ω} {request : UpdateRequest V}
    (hm : request.sessionHandle ∈ reg.esMap) : (writeValues b reg request).isSome := by
  unfold writeValues
  split_ifs
  · rfl
  · exact isSome_valuesSection hm

theorem isSome_writeGradients {reg : Registry σ ω} {request : UpdateRequest V}
    (hm : request.sessionHandle ∈ reg.esMap) : (writeGradients b reg request).isSome := by
  unfold writeGradients
  split_ifs
  · rfl
  · exact isSome_gradientsSection hm

/-- From any registry, every request is served without dereferencing a
    missing entry. -/
theorem isSome_serve (reg : Registry σ ω) (rq : Request K G V) : (serve b reg rq).isSome := by
  cases rq with
  | startSession _ | knowledgeBankSize => rfl
  | lookup request =>
    simp only [serve, lookup, Option.isSome_map']
    split_ifs with _ _ hok
    · rfl
    · rfl
    · exact isSome_lookupSection (mem_of_startSessionIfNecessary_ok hok).1
    · rfl
  | update request =>
    simp only [serve, update, Option.isSome_map']
    split_ifs with _ _ hok
    · rfl
    · rfl
    · -- The values branch keeps the store the start left.
      have hm := (mem_of_startSessionIfNecessary_ok hok).1
      obtain ⟨reg₁, h₁⟩ : ∃ reg₁, writeValues b _ request = some reg₁ :=
        Option.isSome_iff_exists.mp (isSome_writeValues hm)
      rw [h₁, Option.some_bind]
      exact isSome_writeGradients (((writeValues_registry h₁).mem_esMap _).mpr hm)
    · rfl

end Handlers

end Carls
