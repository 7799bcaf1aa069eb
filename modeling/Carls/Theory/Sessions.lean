import Mathlib.Data.List.Dedup
import Carls.Concurrent.Threads
import Carls.Theory.Construction

/-!
# Which Sessions a Run Leaves

The sessions in the registry after a run, read off the run itself.

A request that passes its argument checks runs `StartSessionIfNecessary` on
its handle and then only writes that handle's store; a request that fails
them, and `KnowledgeBankSize`, change nothing (`serve_registry_entry`). Since
no entry is ever removed and the factories are functions of the
configuration the handle encodes, whether a handle ends with a store depends
only on whether some request of the run got past its checks with it, and on
whether the store factory accepts its configuration. Whether it ends with an
optimizer depends, in addition, on the configuration asking for one the
optimizer factory builds. Neither the order of the requests nor how often a
handle recurs plays a part.

So the number `KnowledgeBankSize` reports after any run from the
constructor's state is a function of the run: the number of distinct handles
that passed their checks and whose configuration the store factory accepts
(`sessions_serveAll`).

For the same reason, what a start of a handle reports does not depend on
the history either: in every reachable state it is `configStatus`, read off
the handle's configuration alone (`serve_configStatus`), and under every
interleaving concurrent starts of one handle all report it
(`startSessionIfNecessary_of_interleaved`). A session that the
optimizer factory cannot complete stays unusable for good: every `Lookup` on
it fails at its start, although its store is in place and a lookup never
touches the optimizer.

## Main definitions

* `entryHandles`: The handles of the requests that pass their argument checks.
* `storeMade`, `OptimizerMade`: What the two factories build for a handle.
* `StartedBy`: A registry holds exactly the sessions some handles started.
* `configStatus`: The status a start reports, from the configuration alone.
* `Buildable`: Every entry is one the factories build.

## Theorems

* `serve_of_entry`: A request past its checks is a start of its handle, then
  the rest of its handler or the start's failure.
* `serve_registry_entry`: A request past its checks is a start of its handle
  and then store writes; any other request changes nothing.
* `mem_esMap_serve`, `mem_gdMap_serve`: The stores and optimizers after one
  request.
* `StartedBy.serve`, `StartedBy.serveAll`: One request, then a run.
* `sessions_serveAll`: The sessions after any run, and their number.
* `Buildable.fst_startSessionIfNecessary`, `serve_status_of_start`: The status
  of a start, and of a request whose start fails.
* `buildable_of_interleaved`: Every interleaving holds only what the factories
  build.
* `serve_configStatus`: In every reachable state a start reports
  `configStatus`.
* `startSessionIfNecessary_of_interleaved`: So do concurrent starts, under
  every interleaving.
-/

namespace Carls

section Sessions

variable {K G σ ω V : Type} (b : Backend K G σ ω V)

/-- The handles of the requests that get past their argument checks, in
    order; `KnowledgeBankSize` has none. -/
def entryHandles (rqs : List (Request K G V)) : List String :=
  rqs.filterMap fun rq => (rq.entry b).handle

/-- The store factory builds a store from the configuration `h` encodes. -/
def storeMade (h : String) : Bool :=
  (b.make (b.sessionConfig h).knowledgeBankConfig (b.sessionConfig h).embeddingDimension).isSome

/-- The configuration `h` encodes asks for an optimizer, and the optimizer
    factory builds it. -/
def OptimizerMade (h : String) : Prop :=
  ∃ gd, (b.sessionConfig h).gradientDescentConfig = some gd ∧
    (b.create (b.sessionConfig h).embeddingDimension gd).isSome

/-- `reg` has a store exactly for the handles of `hs` whose configuration the
    store factory accepts, and an optimizer exactly for those of them whose
    configuration asks for one the optimizer factory builds. -/
def StartedBy (hs : List String) (reg : Registry σ ω) : Prop :=
  ∀ h, (h ∈ reg.esMap ↔ h ∈ hs ∧ storeMade b h) ∧
    (h ∈ reg.gdMap ↔ h ∈ hs ∧ storeMade b h ∧ OptimizerMade b h)

theorem entryHandles_cons (rq : Request K G V) (rqs : List (Request K G V)) :
    entryHandles b (rq :: rqs) = (rq.entry b).handle.toList ++ entryHandles b rqs := by
  simp only [entryHandles, List.filterMap_cons]
  cases (rq.entry b).handle <;> rfl

variable {b}

/-- Past its checks with `h`, a request is the start of `h` and then, if the
    start succeeds, the rest of its handler on the started registry, which
    writes at most the store of `h`; a failed start is returned with the
    registry it left. -/
theorem serve_of_entry {rq : Request K G V} {h : String}
    (hh : (rq.entry b).handle = some h) :
    ∃ (rest : Registry σ ω → Option (Reply (Response V) σ ω)) (fail : Response V),
      (∀ reg r, rest reg = some r → reg.StoreWrite h r.registry) ∧
      ∀ reg, serve b reg rq =
        if (startSessionIfNecessary b reg h).1.code = .ok then
          rest (startSessionIfNecessary b reg h).2
        else
          some ⟨(startSessionIfNecessary b reg h).1, fail, (startSessionIfNecessary b reg h).2⟩ := by
  cases rq with
  | startSession request =>
    simp only [Request.entry] at hh
    split_ifs at hh with hn
    · cases hh
    · cases hh
      refine ⟨fun reg => some ⟨Status.OK, .startSession (b.serializeAsString request), reg⟩,
        .startSession "", fun _ _ e => by cases e; exact .refl _ _, fun reg => ?_⟩
      simp only [serve, startSession, if_neg hn]
      split_ifs <;> rfl
  | lookup request =>
    simp only [Request.entry] at hh
    split_ifs at hh with h₁ h₂
    · cases hh
    · cases hh
    · cases hh
      refine ⟨fun reg => (lookupSection b reg request).map (·.mapResponse .lookup), .lookup ⟨∅⟩,
        fun _ _ e => ?_, fun reg => ?_⟩
      · obtain ⟨r, hr, rfl⟩ := Option.map_eq_some'.mp e
        exact lookupSection_registry hr
      · simp only [serve, lookup, if_neg h₁, if_neg h₂]
        split_ifs <;> rfl
  | update request =>
    simp only [Request.entry] at hh
    split_ifs at hh with h₁ h₂
    · cases hh
    · cases hh
    · cases hh
      refine ⟨fun reg => ((writeValues b reg request).bind fun reg =>
        writeGradients b reg request).map (·.mapResponse fun _ => .update), .update,
        fun _ _ e => ?_, fun reg => ?_⟩
      · obtain ⟨r, hr, rfl⟩ := Option.map_eq_some'.mp e
        obtain ⟨reg₁, h₁, hr⟩ := Option.bind_eq_some.mp hr
        exact (writeValues_registry h₁).trans (writeGradients_registry hr)
      · simp only [serve, update, if_neg h₁, if_neg h₂]
        split_ifs <;> rfl
  | knowledgeBankSize => cases hh

/-- A request that gets past its argument checks starts its handle and then
    writes at most that handle's store; any other request leaves the
    registry as it was. -/
theorem serve_registry_entry {reg : Registry σ ω} {rq : Request K G V}
    {r : Reply (Response V) σ ω} (hr : serve b reg rq = some r) :
    (∀ h, (rq.entry b).handle = some h →
      (startSessionIfNecessary b reg h).2.StoreWrite h r.registry) ∧
    ((rq.entry b).handle = none → r.registry = reg) := by
  refine ⟨fun h hh => ?_, fun hn => ?_⟩
  · obtain ⟨rest, fail, hrest, he⟩ := serve_of_entry hh
    rw [he] at hr
    split_ifs at hr
    · exact hrest _ _ hr
    · cases hr; exact .refl _ _
  · rcases Request.entry_of_handle_eq_none hn with rfl | ⟨st, resp, hst⟩
    · cases hr; rfl
    -- A request that fails its checks has returned at its entry.
    have hrun := serve_runs hr
    rw [hst] at hrun
    rcases Relation.ReflTransGen.cases_head hrun with e | ⟨q, hq, -⟩
    · exact (congrArg Prod.snd e).symm
    · cases hq

/-- After one request, `h` has a store if it had one, or if the request got
    past its checks with `h` and the factory accepts `h`'s configuration. -/
theorem mem_esMap_serve {reg : Registry σ ω} {rq : Request K G V}
    {r : Reply (Response V) σ ω} (hr : serve b reg rq = some r) (h : String) :
    h ∈ r.registry.esMap ↔ h ∈ reg.esMap ∨ (rq.entry b).handle = some h ∧ storeMade b h := by
  obtain ⟨hs, hn⟩ := serve_registry_entry hr
  cases he : (rq.entry b).handle with
  | none => simp [hn he]
  | some h' =>
    rw [(hs h' he).mem_esMap]
    by_cases e : h = h'
    · subst e
      simp [mem_esMap_startSessionIfNecessary, storeMade]
    · -- The start of another handle leaves `h` alone.
      rw [(Registry.mem_iff_of_slot_eq ((addsOnly_startSessionIfNecessary b reg h').slot_ne e)).1]
      simp [Ne.symm e]

/-- After one request, `h` has an optimizer if it had one, or if the request
    got past its checks with `h`, `h` has a store by then, and its
    configuration asks for an optimizer the factory builds. -/
theorem mem_gdMap_serve {reg : Registry σ ω} {rq : Request K G V}
    {r : Reply (Response V) σ ω} (hr : serve b reg rq = some r) (h : String) :
    h ∈ r.registry.gdMap ↔ h ∈ reg.gdMap ∨
      (rq.entry b).handle = some h ∧ (h ∈ reg.esMap ∨ storeMade b h) ∧ OptimizerMade b h := by
  obtain ⟨hs, hn⟩ := serve_registry_entry hr
  cases he : (rq.entry b).handle with
  | none => simp [hn he]
  | some h' =>
    rw [(hs h' he).gdMap_eq]
    by_cases e : h = h'
    · subst e
      simp [mem_gdMap_startSessionIfNecessary, mem_esMap_startSessionIfNecessary, storeMade,
        OptimizerMade]
    · rw [(Registry.mem_iff_of_slot_eq ((addsOnly_startSessionIfNecessary b reg h').slot_ne e)).2]
      simp [Ne.symm e]

theorem startedBy_empty : StartedBy b [] (Registry.empty : Registry σ ω) := fun _ => by
  simp [Registry.empty]

theorem StartedBy.serve {hs : List String} {reg : Registry σ ω} (hi : StartedBy b hs reg)
    {rq : Request K G V} {r : Reply (Response V) σ ω} (hr : serve b reg rq = some r) :
    StartedBy b (hs ++ (rq.entry b).handle.toList) r.registry := fun h => by
  rw [mem_esMap_serve hr, mem_gdMap_serve hr, (hi h).1, (hi h).2, List.mem_append,
    Option.mem_toList, Option.mem_def, or_iff_right_of_imp And.right, ← or_and_right,
    ← or_and_right]
  exact ⟨Iff.rfl, Iff.rfl⟩

theorem StartedBy.serveAll :
    ∀ (rqs : List (Request K G V)) {hs : List String} {reg reg' : Registry σ ω},
      StartedBy b hs reg → serveAll b reg rqs = some reg' →
      StartedBy b (hs ++ entryHandles b rqs) reg'
  | [], hs, _, _, hi, hrun => by cases hrun; simpa [entryHandles] using hi
  | rq :: rqs, hs, _, _, hi, hrun => by
    obtain ⟨r, hr, hrun⟩ := Option.bind_eq_some.mp hrun
    rw [entryHandles_cons, ← List.append_assoc]
    exact StartedBy.serveAll rqs (hi.serve hr) hrun

end Sessions

/-- After any run from the constructor's state, a handle has a store exactly
    when some request of the run got past its argument checks with it and the
    store factory accepts its configuration, and an optimizer exactly when,
    moreover, its configuration asks for one the optimizer factory builds. So
    `KnowledgeBankSize` then reports the number of distinct such handles. -/
theorem sessions_serveAll {K G σ ω V : Type} (b : Backend K G σ ω V)
    (rqs : List (Request K G V)) {reg' : Registry σ ω}
    (hrun : serveAll b Registry.empty rqs = some reg') :
    (∀ h, h ∈ reg'.esMap ↔ h ∈ entryHandles b rqs ∧ storeMade b h) ∧
    (∀ h, h ∈ reg'.gdMap ↔ h ∈ entryHandles b rqs ∧ storeMade b h ∧ OptimizerMade b h) ∧
    reg'.knowledgeBankSize = ((entryHandles b rqs).filter (storeMade b)).dedup.length := by
  have hi := StartedBy.serveAll rqs startedBy_empty hrun
  rw [List.nil_append] at hi
  refine ⟨fun h => (hi h).1, fun h => (hi h).2, ?_⟩
  -- The keys of `es_map_` and the handles counted are both without repeats.
  refine ((List.perm_ext_iff_of_nodup reg'.esMap.keys_nodup (List.nodup_dedup _)).mpr
    fun h => ?_).length_eq
  rw [List.mem_dedup, List.mem_filter]
  exact AList.mem_keys.trans (hi h).1

/-- A run that starts `emb`, fails the checks of one lookup, creates a key in
    a second session `other`, and asks for the size. -/
def mixedRun : List (Request Unit Unit Int) :=
  [.startSession embRequest, .lookup ⟨"", ["a"], false⟩, .lookup ⟨"other", ["a"], true⟩,
    .knowledgeBankSize]

/-- The registry `mixedRun` leaves. -/
def mixedRegistry : Registry (String → Option Int) Unit :=
  (serveAll okBackend Registry.empty mixedRun).getD Registry.empty

theorem sessions_mixedRun :
    serveAll okBackend Registry.empty mixedRun = some mixedRegistry ∧
    (∀ h, h ∈ mixedRegistry.esMap ↔ h ∈ entryHandles okBackend mixedRun ∧ storeMade okBackend h) ∧
    (∀ h, h ∈ mixedRegistry.gdMap ↔
      h ∈ entryHandles okBackend mixedRun ∧ storeMade okBackend h ∧ OptimizerMade okBackend h) ∧
    mixedRegistry.knowledgeBankSize =
      ((entryHandles okBackend mixedRun).filter (storeMade okBackend)).dedup.length :=
  have hrun : serveAll okBackend Registry.empty mixedRun = some mixedRegistry := rfl
  ⟨hrun, sessions_serveAll _ mixedRun hrun⟩

section Status

variable {K G σ ω V : Type} (b : Backend K G σ ω V)

/-- The status a start of `h` reports, read off the configuration `h` encodes
    alone: the store factory's failure, else the optimizer factory's failure
    on a requested optimizer, else `OK`. -/
def configStatus (h : String) : Status :=
  if storeMade b h then
    match (b.sessionConfig h).gradientDescentConfig with
    | some gd =>
      if (b.create (b.sessionConfig h).embeddingDimension gd).isSome then Status.OK
      else Status.optimizerFailed
    | none => Status.OK
  else Status.knowledgeBankFailed

theorem configStatus_cases (h : String) :
    configStatus b h = Status.OK ∨ configStatus b h = Status.knowledgeBankFailed ∨
      configStatus b h = Status.optimizerFailed := by
  unfold configStatus
  split_ifs
  · split
    · split_ifs
      · exact .inl rfl
      · exact .inr (.inr rfl)
    · exact .inl rfl
  · exact .inr (.inl rfl)

/-- Every store and every optimizer in `reg` is one the factories build from
    its handle's configuration. -/
def Buildable (reg : Registry σ ω) : Prop :=
  ∀ h, (h ∈ reg.esMap → storeMade b h) ∧ (h ∈ reg.gdMap → storeMade b h ∧ OptimizerMade b h)

variable {b}

theorem StartedBy.buildable {hs : List String} {reg : Registry σ ω} (hi : StartedBy b hs reg) :
    Buildable b reg :=
  fun h => ⟨fun hm => ((hi h).1.mp hm).2, fun hm => ((hi h).2.mp hm).2⟩

/-- From a buildable registry, a start of `h` leaves it a store exactly when
    the store factory accepts its configuration, and an optimizer exactly
    when, moreover, the configuration asks for one the optimizer factory
    builds. -/
theorem Buildable.mem_startSessionIfNecessary {reg : Registry σ ω} (hi : Buildable b reg)
    (h : String) :
    (h ∈ (startSessionIfNecessary b reg h).2.esMap ↔ storeMade b h) ∧
    (h ∈ (startSessionIfNecessary b reg h).2.gdMap ↔ storeMade b h ∧ OptimizerMade b h) := by
  have hes : h ∈ (startSessionIfNecessary b reg h).2.esMap ↔ storeMade b h := by
    rw [mem_esMap_startSessionIfNecessary]
    exact ⟨fun e => e.elim (hi h).1 id, Or.inr⟩
  refine ⟨hes, ?_⟩
  rw [mem_gdMap_startSessionIfNecessary, hes]
  exact ⟨fun e => e.elim (hi h).2 id, Or.inr⟩

theorem Buildable.started {reg : Registry σ ω} (hi : Buildable b reg)
    (h : String) : Buildable b (startSessionIfNecessary b reg h).2 := fun h' => by
  by_cases e : h' = h
  · subst e
    obtain ⟨hes, hgd⟩ := hi.mem_startSessionIfNecessary h'
    exact ⟨hes.mp, hgd.mp⟩
  · have hs := Registry.mem_iff_of_slot_eq ((addsOnly_startSessionIfNecessary b reg h).slot_ne e)
    exact ⟨fun hm => (hi h').1 (hs.1.mp hm), fun hm => (hi h').2 (hs.2.mp hm)⟩

theorem Buildable.storeWrite {reg reg' : Registry σ ω} {h : String} (hi : Buildable b reg)
    (hw : reg.StoreWrite h reg') : Buildable b reg' := fun h' =>
  ⟨fun hm => (hi h').1 ((hw.mem_esMap h').mp hm), fun hm => (hi h').2 (hw.gdMap_eq ▸ hm)⟩

/-- From a buildable registry, a start of `h` reports `configStatus b h`. -/
theorem Buildable.fst_startSessionIfNecessary {reg : Registry σ ω} (hi : Buildable b reg)
    (h : String) : (startSessionIfNecessary b reg h).1 = configStatus b h := by
  obtain ⟨hes, hgd⟩ := hi.mem_startSessionIfNecessary h
  rw [startSessionIfNecessary_fst]
  unfold startStatus configStatus
  -- The three outcomes, as the configuration decides them.
  cases hm : storeMade b h
  · rw [if_pos fun hm' => by simp [hm] at hes; exact hes hm', if_neg Bool.false_ne_true]
  · rw [if_neg (not_not.mpr (hes.mpr hm)), if_pos rfl]
    have hopt := hgd.trans (and_iff_right hm)
    cases hg : (b.sessionConfig h).gradientDescentConfig with
    | none => exact if_neg fun ⟨e, _⟩ => by cases e
    | some gd =>
      by_cases hc : (b.create (b.sessionConfig h).embeddingDimension gd).isSome
      · exact (if_neg fun ⟨_, hn⟩ => hn (hopt.mpr ⟨gd, hg, hc⟩)).trans (if_pos hc).symm
      · refine (if_pos ⟨rfl, fun hm' => ?_⟩).trans (if_neg hc).symm
        obtain ⟨gd', hg', hc'⟩ := hopt.mp hm'
        rw [hg, Option.some.injEq] at hg'
        exact hc (hg' ▸ hc')

/-- Every interleaving keeps the registry buildable. -/
theorem buildable_of_interleaved {c : Config σ ω V} (hc : Interleaved b c) :
    Buildable b c.registry :=
  hc.registry_induction (fun _ => by simp [Registry.empty]) (fun _ h hi => hi.started h)
    fun _ _ _ hi hw => hi.storeWrite hw

/-- A request that gets past its checks and whose start fails returns the
    start's status. -/
theorem serve_status_of_start {reg : Registry σ ω} {rq : Request K G V} {h : String}
    (hh : (rq.entry b).handle = some h)
    (hok : (startSessionIfNecessary b reg h).1.code ≠ .ok) :
    ∃ r, serve b reg rq = some r ∧ r.status = (startSessionIfNecessary b reg h).1 := by
  obtain ⟨rest, fail, -, he⟩ := serve_of_entry hh
  exact ⟨_, by rw [he, if_neg hok], rfl⟩

end Status

/-- In every reachable registry, the start of `h` reports `configStatus b h`,
    a function of the configuration `h` encodes and not of the history: so a
    request that gets past its checks with `h` fails at its start in every
    reachable state or in none, and when it fails it returns that status. In
    particular a session whose configuration asks for an optimizer the
    factory cannot build serves no `Lookup`, although its store exists and
    a lookup never uses the optimizer. -/
theorem serve_configStatus {K G σ ω V : Type} (b : Backend K G σ ω V) {reg : Registry σ ω}
    (hr : Reachable b reg) {rq : Request K G V} {h : String} (hh : (rq.entry b).handle = some h) :
    (startSessionIfNecessary b reg h).1 = configStatus b h ∧
    (configStatus b h ≠ Status.OK → ∃ r, serve b reg rq = some r ∧ r.status = configStatus b h) := by
  obtain ⟨rqs, hrun⟩ := hr
  have hst := (StartedBy.serveAll rqs startedBy_empty hrun).buildable.fst_startSessionIfNecessary h
  refine ⟨hst, fun hne => ?_⟩
  -- Both failure statuses have code `INTERNAL`.
  have hok : (startSessionIfNecessary b reg h).1.code ≠ .ok := by
    rw [hst]
    rcases configStatus_cases b h with e | e | e <;> rw [e]
    · exact absurd e hne
    · decide
    · decide
  rw [← hst]
  exact serve_status_of_start hh hok

/-- On the service left half-started by a failing optimizer factory, a lookup
    of `emb` fails at its start. -/
theorem serve_configStatus_halfStarted :
    Reachable (exampleBackend fun _ _ => none) halfStarted ∧
    (Request.entry (exampleBackend fun _ _ => none)
      (.lookup ⟨"emb", ["first"], false⟩ : Request Unit Unit Int)).handle = some "emb" ∧
    (startSessionIfNecessary (exampleBackend fun _ _ => none) halfStarted "emb").1 =
      configStatus (exampleBackend fun _ _ => none) "emb" ∧
    (configStatus (exampleBackend fun _ _ => none) "emb" ≠ Status.OK →
      ∃ r, serve (exampleBackend fun _ _ => none) halfStarted (.lookup ⟨"emb", ["first"], false⟩) =
        some r ∧ r.status = configStatus (exampleBackend fun _ _ => none) "emb") :=
  have hr : Reachable (exampleBackend fun _ _ => none) halfStarted :=
    ⟨[.startSession embRequest], rfl⟩
  ⟨hr, rfl, serve_configStatus _ hr rfl⟩

/-- Under every interleaving, concurrent starts of one handle converge: each
    reports `configStatus b h`, and each leaves `h` with a store exactly when
    the store factory accepts its configuration and with an optimizer exactly
    when, moreover, the configuration asks for one the optimizer factory
    builds, whatever ran before it. -/
theorem startSessionIfNecessary_of_interleaved {K G σ ω V : Type} (b : Backend K G σ ω V)
    {c : Config σ ω V} (hc : Interleaved b c) (h : String) :
    (startSessionIfNecessary b c.registry h).1 = configStatus b h ∧
    (h ∈ (startSessionIfNecessary b c.registry h).2.esMap ↔ storeMade b h) ∧
    (h ∈ (startSessionIfNecessary b c.registry h).2.gdMap ↔
      storeMade b h ∧ OptimizerMade b h) :=
  have hi := buildable_of_interleaved hc
  ⟨hi.fst_startSessionIfNecessary h, hi.mem_startSessionIfNecessary h⟩

/-- A second start of `emb` while a lookup that started it is in flight. -/
theorem startSessionIfNecessary_of_interleaved_emb :
    Interleaved okBackend ⟨(startSessionIfNecessary okBackend Registry.empty "emb").2,
      [.lookup ⟨"emb", ["first"], true⟩]⟩ ∧
    (startSessionIfNecessary okBackend
      (startSessionIfNecessary okBackend Registry.empty "emb").2 "emb").1 =
        configStatus okBackend "emb" ∧
    ("emb" ∈ (startSessionIfNecessary okBackend
      (startSessionIfNecessary okBackend Registry.empty "emb").2 "emb").2.esMap ↔
        storeMade okBackend "emb") ∧
    ("emb" ∈ (startSessionIfNecessary okBackend
      (startSessionIfNecessary okBackend Registry.empty "emb").2 "emb").2.gdMap ↔
        storeMade okBackend "emb" ∧ OptimizerMade okBackend "emb") :=
  have h : (Request.entry okBackend (.lookup ⟨"emb", ["first"], true⟩)).step okBackend
      Registry.empty = some (.lookup ⟨"emb", ["first"], true⟩,
        (startSessionIfNecessary okBackend Registry.empty "emb").2) := rfl
  have hc : Interleaved okBackend ⟨(startSessionIfNecessary okBackend Registry.empty "emb").2,
      [.lookup ⟨"emb", ["first"], true⟩]⟩ :=
    .tail (.single (.spawn _ _ (.lookup ⟨"emb", ["first"], true⟩))) (.run [] [] h)
  ⟨hc, startSessionIfNecessary_of_interleaved okBackend hc "emb"⟩

end Carls
