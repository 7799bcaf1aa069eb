import Carls.Theory.Gradient

/-!
# The Service as Tables of Embeddings

What the knowledge bank service is for, with no store, optimizer or lock in
sight: a finite map from session handles to tables, each table a map from
keys to embedding vectors.

A session is started the first time a request that passes its checks names
it, with the table of a new store, when the store factory accepts its
configuration. A start fails when the store factory does, or when the
configuration asks for an optimizer the optimizer factory cannot build; the
table it created stays. A lookup answers the session's table restricted to
the requested keys, and with update it first creates the missing keys. An
update writes its values over the table and then applies each gradient to the
vector of its key, which it does only when every gradient's key has a vector.
`KnowledgeBankSize` counts the sessions.

What the factories, the store and the optimizer contribute is gathered in a
`Design`, handle by handle: the table a new store starts with, whether the
configuration asks for an optimizer and whether the factory fails to build
it, the vector a lookup creates, the update rule, and the text the optimizer
gives when it rejects its input. `Abstract.Refinement` shows that the service
computes exactly this machine, for a store that behaves as a finite map.

## Main definitions

* `Tables`: The sessions and their tables.
* `Design`: What the collaborators decide, handle by handle.
* `Answer`, `Response.answer`: A response as a client reads it.
* `Outcome`: What a request does, seen by a client.
* `Design.start`, `Design.started`: A start, then the rest of a handler.
* `Design.gradientStep`: The gradient branch on one table.
* `Design.serve`, `Design.serveAll`: One request, and a run.
* `Design.handle`: The handle a request works on, once past its checks.

## Theorems

* `Design.lookup_start`: A start only adds the table of its own handle.
* `Design.started_of_lookup`: The rest of a handler runs exactly when the
  start leaves a table and the optimizer factory does not fail.
* `Design.lookup_started_ne`, `Design.lookup_serve_ne`: A request leaves
  every other handle's table as it is.
* `Design.serve_lookup_answer`: A lookup answers nothing for a key it did
  not ask for.
* `Design.started_congr`, `Design.serve_congr`: What a request returns and
  leaves at its handle depends on that handle's table only.
* `Design.lookup_serveAll_ne`: A run with no request on a handle leaves its
  table as it is.
* `Design.lookup_serveAll_of_mem`: In a run on pairwise different handles,
  each handle's table is the one its request leaves alone.
-/

namespace Carls

/-- The sessions as a client sees them: the handles that have a store, each
    with the table its store holds. -/
abbrev Tables (V : Type) := AList fun _ : String => String → Option V

/-- What the collaborators decide, handle by handle, and the update rule. -/
structure Design (K G V : Type) where
  /-- The handle `StartSession` gives a request. -/
  handleOf : StartSessionRequest K G → String
  /-- The table of a new store, or `none` when the store factory fails. -/
  fresh : String → Option (String → Option V)
  /-- The handle's configuration asks for an optimizer. -/
  requested : String → Bool
  /-- The configuration asks for an optimizer the factory fails to build. -/
  optimizerFails : String → Bool
  /-- The vector a lookup with update creates for a missing key. -/
  init : String → V
  /-- A vector and its gradient give the updated vector. -/
  rule : V → V → V
  /-- The optimizer's error text, from the handle, vectors and gradients. -/
  applyMessage : String → List V → List V → String

/-- What a client reads of a response: a lookup's table is read key by key. -/
inductive Answer (V : Type) where
  | startSession (sessionHandle : String)
  | lookup (table : String → Option V)
  | update
  | knowledgeBankSize (size : Nat)

/-- A response as a client reads it. -/
def Response.answer {V : Type} : Response V → Answer V
  | .startSession h => .startSession h
  | .lookup r => .lookup fun k => r.embeddingTable.lookup k
  | .update => .update
  | .knowledgeBankSize n => .knowledgeBankSize n

/-- What a request does, seen by a client: its status, its answer, and the
    sessions it leaves. -/
structure Outcome (V : Type) where
  status : Status
  answer : Answer V
  tables : Tables V

/-- The table a lookup answers: `t` on the requested keys, nothing elsewhere. -/
def restrict {V : Type} (t : String → Option V) (keys : List String) (k : String) : Option V :=
  if k ∈ keys then t k else none

namespace Design

variable {K G V : Type} (D : Design K G V)

/-- A start of `h`: a handle without a table gets the table of a new store,
    when the factory builds one. -/
def start (A : Tables V) (h : String) : Tables V :=
  match A.lookup h, D.fresh h with
  | none, some t => A.insert h t
  | _, _ => A

/-- A start of `h`, then `next` on the tables and the table of `h` when the
    start succeeds. A failed start answers `fail`, with the status of the
    factory that failed. -/
def started (A : Tables V) (h : String) (fail : Answer V)
    (next : Tables V → (String → Option V) → Outcome V) : Outcome V :=
  match (D.start A h).lookup h with
  | none => ⟨Status.knowledgeBankFailed, fail, D.start A h⟩
  | some t =>
    if D.optimizerFails h then ⟨Status.optimizerFailed, fail, D.start A h⟩
    else next (D.start A h) t

/-- `Update`'s gradient branch on `t`, the table of `h` once the values are
    written: its status and the table it leaves. It is skipped on an empty
    map, fails without an optimizer or when no gradient's key has a vector,
    and applies the gradients only when every key has one. -/
def gradientStep (h : String) (gradients : ProtoMap V) (t : String → Option V) :
    Status × (String → Option V) :=
  let keys := gradients.keys
  if keys = [] then (Status.OK, t)
  else if D.requested h = false then (Status.optimizerNotCreated, t)
  else if (keys.filter fun k => (t k).isSome).isEmpty then (Status.noValidKeys, t)
  else if ∀ k ∈ keys, (t k).isSome then (Status.OK, applyEach D.rule t gradients)
  else (Status.applyFailed (D.applyMessage h (keys.filterMap t) gradients.values), t)

/-- One request: the argument checks, then a start of the handle, then the
    handler's work on the handle's table. -/
def serve (A : Tables V) : Request K G V → Outcome V
  | .startSession r =>
    if r.name = "" then ⟨Status.nameEmpty, .startSession "", A⟩
    else D.started A (D.handleOf r) (.startSession "") fun A₁ _ =>
      ⟨Status.OK, .startSession (D.handleOf r), A₁⟩
  | .lookup r =>
    if r.sessionHandle = "" then ⟨Status.sessionHandleEmpty, .lookup fun _ => none, A⟩
    else if r.key = [] then ⟨Status.emptyInputKeys, .lookup fun _ => none, A⟩
    else D.started A r.sessionHandle (.lookup fun _ => none) fun A₁ t =>
      if r.update then
        ⟨Status.OK, .lookup (restrict (withCreated t D.init r.key) r.key),
          A₁.replace r.sessionHandle (withCreated t D.init r.key)⟩
      else ⟨Status.OK, .lookup (restrict t r.key), A₁⟩
  | .update r =>
    if r.sessionHandle = "" then ⟨Status.sessionHandleEmpty, .update, A⟩
    else if r.values.keys = [] ∧ r.gradients.keys = [] then ⟨Status.inputEmpty, .update, A⟩
    else D.started A r.sessionHandle .update fun A₁ t =>
      let g := D.gradientStep r.sessionHandle r.gradients
        (overwrite t r.values.keys r.values.values)
      ⟨g.1, .update, A₁.replace r.sessionHandle g.2⟩
  | .knowledgeBankSize => ⟨Status.OK, .knowledgeBankSize A.keys.length, A⟩

/-- A run of requests, one after another. -/
def serveAll : Tables V → List (Request K G V) → Tables V
  | A, [] => A
  | A, rq :: rqs => serveAll (D.serve A rq).tables rqs

/-- The handle a request works on once it passes its argument checks: none
    for a request that fails them, and none for `KnowledgeBankSize`. -/
def handle : Request K G V → Option String
  | .startSession r => if r.name = "" then none else some (D.handleOf r)
  | .lookup r => if r.sessionHandle = "" ∨ r.key = [] then none else some r.sessionHandle
  | .update r =>
    if r.sessionHandle = "" ∨ r.values.keys = [] ∧ r.gradients.keys = [] then none
    else some r.sessionHandle
  | .knowledgeBankSize => none

/-- A start gives `h` the table it had, or else the table of a new store, and
    leaves every other table as it was. -/
theorem lookup_start (A : Tables V) (h h' : String) :
    (D.start A h).lookup h' = if h' = h then (A.lookup h).or (D.fresh h) else A.lookup h' := by
  unfold start
  split
  · next hl hf =>
    by_cases e : h' = h
    · subst e; simp [hl, hf]
    · simp [e, AList.lookup_insert_ne e]
  · next hn =>
    by_cases e : h' = h
    · subst e
      cases hl : A.lookup h' <;> cases hf : D.fresh h' <;> simp_all
    · simp [e]

/-- The rest of a handler runs exactly when the start leaves `h` a table and
    the optimizer factory does not fail. -/
theorem started_of_lookup {A : Tables V} {h : String} {t : String → Option V}
    (ht : (D.start A h).lookup h = some t) (hf : D.optimizerFails h = false) (fail : Answer V)
    (next : Tables V → (String → Option V) → Outcome V) :
    D.started A h fail next = next (D.start A h) t := by
  simp only [started, ht, hf, Bool.false_eq_true, if_false]

/-- A handler whose rest leaves `h'` alone leaves it alone. -/
theorem lookup_started_ne {A : Tables V} {h h' : String} (hne : h' ≠ h) (fail : Answer V)
    {next : Tables V → (String → Option V) → Outcome V}
    (hnext : ∀ t, (next (D.start A h) t).tables.lookup h' = (D.start A h).lookup h') :
    (D.started A h fail next).tables.lookup h' = A.lookup h' := by
  have hs : (D.start A h).lookup h' = A.lookup h' := by rw [lookup_start, if_neg hne]
  unfold started
  split
  · exact hs
  · split_ifs
    · exact hs
    · exact (hnext _).trans hs

/-- A handler on `h` started from tables that agree at `h` reports the same
    status and leaves the same table at `h`, when its rest does. -/
theorem started_congr {A₁ A₂ : Tables V} {h : String} (hA : A₁.lookup h = A₂.lookup h)
    {fail : Answer V} {next₁ next₂ : Tables V → (String → Option V) → Outcome V}
    (hnext : ∀ t, (D.start A₁ h).lookup h = some t → (D.start A₂ h).lookup h = some t →
      (next₁ (D.start A₁ h) t).status = (next₂ (D.start A₂ h) t).status ∧
      (next₁ (D.start A₁ h) t).tables.lookup h = (next₂ (D.start A₂ h) t).tables.lookup h) :
    (D.started A₁ h fail next₁).status = (D.started A₂ h fail next₂).status ∧
    (D.started A₁ h fail next₁).tables.lookup h = (D.started A₂ h fail next₂).tables.lookup h := by
  have hs : (D.start A₁ h).lookup h = (D.start A₂ h).lookup h := by
    rw [lookup_start, lookup_start, if_pos rfl, if_pos rfl, hA]
  unfold started
  rw [hs]
  cases ht : (D.start A₂ h).lookup h with
  | none => exact ⟨rfl, hs⟩
  | some t =>
    split_ifs
    · exact ⟨rfl, hs⟩
    · exact hnext t (hs.trans ht) ht

/-- A request leaves every table but its own handle's as it was. -/
theorem lookup_serve_ne (A : Tables V) {rq : Request K G V} {h' : String}
    (hne : ∀ h, D.handle rq = some h → h' ≠ h) : (D.serve A rq).tables.lookup h' = A.lookup h' := by
  cases rq with
  | startSession r =>
    by_cases hn : r.name = ""
    · simp only [serve, if_pos hn]
    simp only [serve, if_neg hn]
    exact D.lookup_started_ne (hne _ (by simp [handle, hn])) _ fun _ => rfl
  | lookup r =>
    by_cases h₁ : r.sessionHandle = ""
    · simp only [serve, if_pos h₁]
    by_cases h₂ : r.key = []
    · simp only [serve, if_neg h₁, if_pos h₂]
    have hh := hne r.sessionHandle (by simp [handle, h₁, h₂])
    simp only [serve, if_neg h₁, if_neg h₂]
    refine D.lookup_started_ne hh _ fun t => ?_
    split
    · exact lookup_replace_ne _ hh
    · rfl
  | update r =>
    by_cases h₁ : r.sessionHandle = ""
    · simp only [serve, if_pos h₁]
    by_cases h₂ : r.values.keys = [] ∧ r.gradients.keys = []
    · simp only [serve, if_neg h₁, if_pos h₂]
    have hh := hne r.sessionHandle (by simp only [handle, h₁, h₂, or_self, if_false])
    simp only [serve, if_neg h₁, if_neg h₂]
    exact D.lookup_started_ne hh _ fun _ => lookup_replace_ne _ hh
  | knowledgeBankSize => rfl

/-- A request served on tables that agree at its handle reports the same
    status and leaves the same table there. -/
theorem serve_congr {A₁ A₂ : Tables V} {rq : Request K G V} {h : String}
    (hh : D.handle rq = some h) (hA : A₁.lookup h = A₂.lookup h) :
    (D.serve A₁ rq).status = (D.serve A₂ rq).status ∧
    (D.serve A₁ rq).tables.lookup h = (D.serve A₂ rq).tables.lookup h := by
  cases rq with
  | startSession r =>
    by_cases hn : r.name = ""
    · simp [handle, hn] at hh
    simp only [handle, if_neg hn, Option.some.injEq] at hh
    subst hh
    simp only [serve, if_neg hn]
    exact D.started_congr hA fun _ ht₁ ht₂ => ⟨rfl, ht₁.trans ht₂.symm⟩
  | lookup r =>
    by_cases hc : r.sessionHandle = "" ∨ r.key = []
    · simp [handle, hc] at hh
    simp only [handle, if_neg hc, Option.some.injEq] at hh
    subst hh
    rw [not_or] at hc
    simp only [serve, if_neg hc.1, if_neg hc.2]
    refine D.started_congr hA fun _ ht₁ ht₂ => ?_
    dsimp only
    split_ifs
    · exact ⟨rfl, by rw [lookup_replace_self _ (mem_of_lookup ht₁),
        lookup_replace_self _ (mem_of_lookup ht₂)]⟩
    · exact ⟨rfl, ht₁.trans ht₂.symm⟩
  | update r =>
    by_cases hc : r.sessionHandle = "" ∨ r.values.keys = [] ∧ r.gradients.keys = []
    · simp only [handle, if_pos hc] at hh
      cases hh
    simp only [handle, if_neg hc, Option.some.injEq] at hh
    subst hh
    rw [not_or] at hc
    simp only [serve, if_neg hc.1, if_neg hc.2]
    exact D.started_congr hA fun _ ht₁ ht₂ => ⟨rfl, by
      rw [lookup_replace_self _ (mem_of_lookup ht₁), lookup_replace_self _ (mem_of_lookup ht₂)]⟩
  | knowledgeBankSize => cases hh

/-- A lookup answers nothing for a key it did not ask for. -/
theorem serve_lookup_answer (A : Tables V) (r : LookupRequest) :
    ∃ t, (D.serve A (.lookup r)).answer = .lookup t ∧ ∀ k, k ∉ r.key → t k = none := by
  simp only [serve]
  split_ifs
  · exact ⟨_, rfl, fun _ _ => rfl⟩
  · exact ⟨_, rfl, fun _ _ => rfl⟩
  -- Past the checks, the start fails and the table is empty, or the lookup
  -- answers its keys.
  all_goals
    unfold started
    split
    · exact ⟨_, rfl, fun _ _ => rfl⟩
    · split_ifs
      · exact ⟨_, rfl, fun _ _ => rfl⟩
      · exact ⟨_, rfl, fun k hk => if_neg hk⟩

/-- A run leaves a handle that no request of it works on as it was. -/
theorem lookup_serveAll_ne (h : String) :
    ∀ (A : Tables V) (rqs : List (Request K G V)), (∀ rq ∈ rqs, D.handle rq ≠ some h) →
      (D.serveAll A rqs).lookup h = A.lookup h
  | _, [], _ => rfl
  | A, rq :: rqs, hn => by
    rw [serveAll, lookup_serveAll_ne h _ rqs fun rq' hm => hn rq' (List.mem_cons_of_mem _ hm)]
    exact D.lookup_serve_ne A fun h' e he => hn rq (List.mem_cons_self _ _) (by rw [he]; exact e)

/-- In a run of requests on pairwise different handles, each request leaves
    its handle's table as it would alone on the tables the run starts from. -/
theorem lookup_serveAll_of_mem :
    ∀ (A : Tables V) (rqs : List (Request K G V)), (rqs.filterMap D.handle).Nodup →
      ∀ rq ∈ rqs, ∀ h, D.handle rq = some h →
        (D.serveAll A rqs).lookup h = (D.serve A rq).tables.lookup h
  | _, [], _, _, hm, _, _ => absurd hm (List.not_mem_nil _)
  | A, rq' :: rqs, hd, rq, hm, h, hh => by
    have hd' : (rqs.filterMap D.handle).Nodup :=
      ((List.sublist_cons_self rq' rqs).filterMap D.handle).nodup hd
    rw [serveAll]
    rcases List.mem_cons.mp hm with rfl | hm
    · -- No later request works on `h`.
      rw [List.filterMap_cons_some hh, List.nodup_cons] at hd
      exact D.lookup_serveAll_ne h _ rqs fun rq'' hm'' e =>
        hd.1 (List.mem_filterMap.mpr ⟨rq'', hm'', e⟩)
    · -- The first request left `h` alone.
      rw [lookup_serveAll_of_mem _ rqs hd' rq hm h hh]
      refine (D.serve_congr hh (D.lookup_serve_ne A fun h'' e he => ?_)).2
      subst he
      rw [List.filterMap_cons_some e, List.nodup_cons] at hd
      exact hd.1 (List.mem_filterMap.mpr ⟨rq, hm, hh⟩)

end Design

end Carls
