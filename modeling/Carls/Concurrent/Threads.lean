import Mathlib.Logic.Relation
import Carls.Store.MapStore

/-!
# Handlers as Threads

The service runs each RPC on a thread of its own, and the threads share the
registry. `map_mu_` serializes the lock-held sections, but a handler takes it
several times: `StartSessionIfNecessary` under the writer lock, then
`Lookup`'s section under the reader lock, or `Update`'s values branch and its
gradient branch under the writer lock twice more. Between two sections of one
handler, any section of any other handler may run.

A `Stage` is where an in-flight handler stands: the next section it runs, or
the status and response it has returned. `Stage.step` runs that section, one
atomic step on the registry, with the same functions the sequential handlers
use, and keeps what the section returns: a lookup section's table, the size
`KnowledgeBankSize` reads under the reader lock (lines 178–181), and the
handle `StartSession` answers. A configuration is the registry with every
handler in flight, and `Step` either admits a new request or runs one section
of one handler, so the runs of `Step` are every interleaving of every set of
requests. The argument checks take no step of their own: they read only the
request. Two `Lookup`s may hold the reader lock at once; the model runs their
sections one after the other, so it takes a store's `BatchLookupWithUpdate`
to be atomic, which is the store's own thread safety, not the service's.

A thread that runs without interruption takes the steps of its sequential
handler and returns its reply (`serve_runs`), so the sequential service is the
special case of one request in flight at a time. `Sections` is `Step` with no
arrival: the interleavings of the handlers already in flight.

## Main definitions

* `Stage`: The next section of an in-flight handler, or its reply.
* `Request.entry`: A handler past its argument checks.
* `Stage.step`: One lock-held section.
* `Stage.handle`: The session a handler's sections are on.
* `Config`, `Step`, `Interleaved`: Every interleaving of every set of
  requests, from the constructor's empty registry.
* `Sections`: A step with no arrival.
* `Stage.Runs`: One handler's sections with nothing in between.

## Theorems

* `Stage.step_registry`: A section is a start, writes one store, or reads the
  size.
* `Interleaved.registry_induction`: What starts and store writes keep holds
  under every interleaving.
* `Stage.Runs.interleaved`: A handler running alone while others wait.
* `serve_runs`, `serve_interleaved`: A handler run alone is the sequential
  handler.
* `interleaved_of_reachable`: Every registry the sequential service reaches,
  some interleaving reaches.
-/

namespace Carls

/-- Where an in-flight handler stands. The `start` stages are about to run
    `StartSessionIfNecessary`; `lookup`, `values` and `gradients` are about to
    run `Lookup`'s section and `Update`'s two branches; `knowledgeBankSize` is
    about to read the size; `done` has returned its status and response. -/
inductive Stage (V : Type) where
  | startSession (sessionHandle : String)
  | startLookup (request : LookupRequest)
  | startUpdate (request : UpdateRequest V)
  | lookup (request : LookupRequest)
  | values (request : UpdateRequest V)
  | gradients (request : UpdateRequest V)
  | knowledgeBankSize
  | done (status : Status) (response : Response V)

/-- A handler after its start: on to `next` if the start returned `OK`, and
    returned with the start's status and the empty response `failed`
    otherwise. -/
def afterStart {V : Type} (status : Status) (next : Stage V) (failed : Response V) : Stage V :=
  if status.code = .ok then next else .done status failed

section Stages

variable {K G σ ω V : Type} (b : Backend K G σ ω V)

/-- A handler past its argument checks (lines 39–41, 54–59, 93–98), or
    returned with the status of the check that failed and an empty response.
    `KnowledgeBankSize` has no checks. -/
def Request.entry : Request K G V → Stage V
  | .startSession r =>
    if r.name = "" then .done Status.nameEmpty (.startSession "")
    else .startSession (b.serializeAsString r)
  | .lookup r =>
    if r.sessionHandle = "" then .done Status.sessionHandleEmpty (.lookup ⟨∅⟩)
    else if r.key = [] then .done Status.emptyInputKeys (.lookup ⟨∅⟩)
    else .startLookup r
  | .update r =>
    if r.sessionHandle = "" then .done Status.sessionHandleEmpty .update
    else if r.values.keys = [] ∧ r.gradients.keys = [] then .done Status.inputEmpty .update
    else .startUpdate r
  | .knowledgeBankSize => .knowledgeBankSize

/-- One lock-held section of a handler, or `none` when it dereferences a
    missing entry or the handler has returned. -/
def Stage.step (reg : Registry σ ω) : Stage V → Option (Stage V × Registry σ ω)
  | .startSession h =>
    let started := startSessionIfNecessary b reg h
    some (afterStart started.1 (.done Status.OK (.startSession h)) (.startSession ""), started.2)
  | .startLookup r =>
    let started := startSessionIfNecessary b reg r.sessionHandle
    some (afterStart started.1 (.lookup r) (.lookup ⟨∅⟩), started.2)
  | .startUpdate r =>
    let started := startSessionIfNecessary b reg r.sessionHandle
    some (afterStart started.1 (.values r) .update, started.2)
  | .lookup r =>
    (lookupSection b reg r).map fun reply => (.done reply.status (.lookup reply.response), reply.registry)
  | .values r => (writeValues b reg r).map fun reg' => (.gradients r, reg')
  | .gradients r =>
    (writeGradients b reg r).map fun reply => (.done reply.status .update, reply.registry)
  | .knowledgeBankSize => some (.done Status.OK (.knowledgeBankSize reg.knowledgeBankSize), reg)
  | .done _ _ => none

/-- The session every section of a handler is on, until it returns. -/
def Stage.handle : Stage V → Option String
  | .startSession h => some h
  | .startLookup r | .lookup r => some r.sessionHandle
  | .startUpdate r | .values r | .gradients r => some r.sessionHandle
  | .knowledgeBankSize | .done _ _ => none

end Stages

/-- The registry and every handler in flight. -/
structure Config (σ ω V : Type) where
  registry : Registry σ ω
  threads : List (Stage V)

/-- A new request arrives, or one handler runs one section. -/
inductive Step {K G σ ω V : Type} (b : Backend K G σ ω V) : Config σ ω V → Config σ ω V → Prop
  | spawn (reg : Registry σ ω) (threads : List (Stage V)) (rq : Request K G V) :
      Step b ⟨reg, threads⟩ ⟨reg, rq.entry b :: threads⟩
  | run {reg reg' : Registry σ ω} {s s' : Stage V} (pre post : List (Stage V))
      (h : s.step b reg = some (s', reg')) :
      Step b ⟨reg, pre ++ s :: post⟩ ⟨reg', pre ++ s' :: post⟩

/-- A configuration some interleaving reaches from the constructor's empty
    registry. -/
def Interleaved {K G σ ω V : Type} (b : Backend K G σ ω V) (c : Config σ ω V) : Prop :=
  Relation.ReflTransGen (Step b) ⟨Registry.empty, []⟩ c

/-- One handler in flight runs one section, and no request arrives. -/
inductive Sections {K G σ ω V : Type} (b : Backend K G σ ω V) :
    Config σ ω V → Config σ ω V → Prop
  | run {reg reg' : Registry σ ω} {s s' : Stage V} (pre post : List (Stage V))
      (h : s.step b reg = some (s', reg')) :
      Sections b ⟨reg, pre ++ s :: post⟩ ⟨reg', pre ++ s' :: post⟩

/-- A handler's sections, one after another with nothing in between: from
    stage `p.1` on registry `p.2` to stage `q.1` on registry `q.2`. -/
def Stage.Runs {K G σ ω V : Type} (b : Backend K G σ ω V) :
    Stage V × Registry σ ω → Stage V × Registry σ ω → Prop :=
  Relation.ReflTransGen fun p q => p.1.step b p.2 = some q

section Alone

variable {K G σ ω V : Type} {b : Backend K G σ ω V}

/-- A section on `h` is a start of `h`, or writes at most the store of `h`;
    `KnowledgeBankSize`'s section only reads. -/
theorem Stage.step_registry {reg reg' : Registry σ ω} {s s' : Stage V}
    (hs : s.step b reg = some (s', reg')) :
    (s = .knowledgeBankSize ∧ reg' = reg) ∨
    ∃ h, s.handle = some h ∧
      (reg' = (startSessionIfNecessary b reg h).2 ∨ reg.StoreWrite h reg') := by
  cases s with
  | startSession h => exact .inr ⟨h, rfl, .inl (congrArg Prod.snd (Option.some.inj hs)).symm⟩
  | startLookup r => exact .inr ⟨_, rfl, .inl (congrArg Prod.snd (Option.some.inj hs)).symm⟩
  | startUpdate r => exact .inr ⟨_, rfl, .inl (congrArg Prod.snd (Option.some.inj hs)).symm⟩
  | lookup r =>
    obtain ⟨reply, hr, ⟨⟩⟩ := Option.map_eq_some'.mp hs
    exact .inr ⟨_, rfl, .inr (lookupSection_registry hr)⟩
  | values r =>
    obtain ⟨reg₁, hr, ⟨⟩⟩ := Option.map_eq_some'.mp hs
    exact .inr ⟨_, rfl, .inr (writeValues_registry hr)⟩
  | gradients r =>
    obtain ⟨reply, hr, ⟨⟩⟩ := Option.map_eq_some'.mp hs
    exact .inr ⟨_, rfl, .inr (writeGradients_registry hr)⟩
  | knowledgeBankSize => exact .inl ⟨rfl, (congrArg Prod.snd (Option.some.inj hs)).symm⟩
  | done _ _ => cases hs

/-- A property of registries that holds of the constructor's, and survives a
    start of any handle and a write to any store, holds of the registry under
    every interleaving. -/
theorem Interleaved.registry_induction {P : Registry σ ω → Prop} (h₀ : P Registry.empty)
    (hstart : ∀ reg h, P reg → P (startSessionIfNecessary b reg h).2)
    (hwrite : ∀ reg reg' h, P reg → reg.StoreWrite h reg' → P reg') {c : Config σ ω V}
    (hc : Interleaved b c) : P c.registry := by
  induction hc with
  | refl => exact h₀
  | tail _ hs ih =>
    cases hs with
    | spawn => exact ih
    | run _ _ h =>
      obtain ⟨-, rfl⟩ | ⟨h', -, rfl | hw⟩ := Stage.step_registry h
      · exact ih
      · exact hstart _ h' ih
      · exact hwrite _ _ _ ih hw

/-- A request whose entry is on no session is `KnowledgeBankSize`, or has
    returned at its entry, having failed its checks. -/
theorem Request.entry_of_handle_eq_none {rq : Request K G V} (hh : (rq.entry b).handle = none) :
    rq = .knowledgeBankSize ∨ ∃ st resp, rq.entry b = .done st resp := by
  cases rq with
  | knowledgeBankSize => exact .inl rfl
  | _ =>
    refine .inr ?_
    simp only [Request.entry] at hh ⊢
    split_ifs at hh ⊢ <;> first | exact ⟨_, _, rfl⟩ | cases hh

theorem Sections.step {c c' : Config σ ω V} (h : Sections b c c') : Step b c c' := by
  cases h with
  | run pre post h => exact .run pre post h

/-- A handler running alone, as a thread among others that wait. -/
theorem Stage.Runs.interleaved {p q : Stage V × Registry σ ω} (h : Stage.Runs b p q)
    (pre post : List (Stage V)) :
    Relation.ReflTransGen (Sections b) ⟨p.2, pre ++ p.1 :: post⟩ ⟨q.2, pre ++ q.1 :: post⟩ := by
  induction h with
  | refl => exact .refl
  | tail _ hs ih => exact ih.tail (.run pre post hs)

/-- A handler that runs without interruption from its entry returns what the
    sequential handler returns, and leaves the same registry. -/
theorem serve_runs {reg : Registry σ ω} {rq : Request K G V} {r : Reply (Response V) σ ω}
    (hr : serve b reg rq = some r) :
    Stage.Runs b (rq.entry b, reg) (.done r.status r.response, r.registry) := by
  cases rq with
  | startSession request =>
    cases hr
    simp only [Request.entry, startSession, Reply.mapResponse]
    split_ifs with hn hok
    · exact .refl
    · exact .single (by simp [Stage.step, afterStart, hok])
    · exact .single (by simp [Stage.step, afterStart, hok])
  | lookup request =>
    obtain ⟨r', hr', rfl⟩ := Option.map_eq_some'.mp hr
    simp only [lookup] at hr'
    simp only [Request.entry]
    split_ifs at hr' ⊢ with h₁ h₂ hok
    · cases hr'; exact .refl
    · cases hr'; exact .refl
    · -- The start, then the section.
      have hs : (Stage.startLookup request).step b reg =
          some (.lookup request, (startSessionIfNecessary b reg request.sessionHandle).2) := by
        simp [Stage.step, afterStart, hok]
      exact .tail (.single hs) (by simp [Stage.step, hr', Reply.mapResponse])
    · cases hr'
      exact .single (by simp [Stage.step, afterStart, hok, Reply.mapResponse])
  | update request =>
    obtain ⟨r', hr', rfl⟩ := Option.map_eq_some'.mp hr
    simp only [update] at hr'
    simp only [Request.entry]
    split_ifs at hr' ⊢ with h₁ h₂ hok
    · cases hr'; exact .refl
    · cases hr'; exact .refl
    · -- The start, the values branch, then the gradient branch.
      obtain ⟨reg₁, hv, hg⟩ := Option.bind_eq_some.mp hr'
      have hs : (Stage.startUpdate request).step b reg =
          some (.values request, (startSessionIfNecessary b reg request.sessionHandle).2) := by
        simp [Stage.step, afterStart, hok]
      have hs' : (Stage.values request).step b (startSessionIfNecessary b reg
          request.sessionHandle).2 = some (.gradients request, reg₁) := by
        simp [Stage.step, hv]
      exact .tail (.tail (.single hs) hs') (by simp [Stage.step, hg, Reply.mapResponse])
    · cases hr'
      exact .single (by simp [Stage.step, afterStart, hok, Reply.mapResponse])
  | knowledgeBankSize =>
    cases hr
    exact .single rfl

/-- A handler that runs without interruption from its entry, while other
    threads wait, returns what the sequential handler returns, and leaves the
    same registry. -/
theorem serve_interleaved {reg : Registry σ ω} {rq : Request K G V}
    {r : Reply (Response V) σ ω} (hr : serve b reg rq = some r) (threads : List (Stage V)) :
    Relation.ReflTransGen (Step b) ⟨reg, rq.entry b :: threads⟩
      ⟨r.registry, .done r.status r.response :: threads⟩ :=
  Relation.ReflTransGen.mono (fun _ _ => Sections.step) ((serve_runs hr).interleaved [] threads)

/-- Requests served one after another are an interleaving in which each
    request runs alone, from its arrival to its return. -/
theorem serveAll_interleaved :
    ∀ (rqs : List (Request K G V)) {reg reg' : Registry σ ω} (threads : List (Stage V)),
      serveAll b reg rqs = some reg' →
      ∃ threads', Relation.ReflTransGen (Step b) ⟨reg, threads⟩ ⟨reg', threads'⟩
  | [], _, _, threads, hrun => by cases hrun; exact ⟨threads, .refl⟩
  | rq :: rqs, reg, _, threads, hrun => by
    obtain ⟨r, hr, hrun⟩ := Option.bind_eq_some.mp hrun
    obtain ⟨threads', hrest⟩ := serveAll_interleaved rqs _ hrun
    exact ⟨threads', .head (.spawn reg threads rq) ((serve_interleaved hr threads).trans hrest)⟩

theorem interleaved_of_reachable {reg : Registry σ ω} (hr : Reachable b reg) :
    ∃ threads, Interleaved b ⟨reg, threads⟩ := by
  obtain ⟨rqs, hrun⟩ := hr
  exact serveAll_interleaved rqs [] hrun

end Alone

end Carls
