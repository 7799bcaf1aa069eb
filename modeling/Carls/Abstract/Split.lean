import Carls.Abstract.Sizes

/-!
# An Update with Values and Gradients Is Two Operations

An `Update` with both values and gradients writes the registry in two
sections, its values branch and then its gradient branch, and another request
can run between them (`lookup_between_branches`). It is two operations, not
one. Served alone, it is its values and then its gradients, each an `Update`
of its own (`update_parts`). And in every interleaving of any requests, on any
sessions, each request can be replaced by its parts (`Request.parts`): an
`Update` with both values and gradients by its values part and then its
gradients part, any other request by itself. Every interleaving that runs
them all to the end is then a serial run of the parts
(`sections_linearizable_parts`), in which the values part returns `OK` once
the session has started and the gradients part returns what the handler
returned; every other request returns what its handler returned, a lookup's
table and a count of sessions included.

The proof is a simulation. A thread of an `Update` with both values and
gradients is matched by two threads, one per part (`Request.splitStage`). Its
start is matched by the starts of both parts, the second of which finds the
session as the first left it. Its values branch is matched by the first
part's values branch, that part's empty gradient branch and the second part's
empty values branch; its gradient branch by the second part's. Each part has
at most one writing section, so the run of their threads is linearizable.

## Main definitions

* `UpdateRequest.valuesPart`, `UpdateRequest.gradientsPart`: An `Update`'s
  values alone and its gradients alone.
* `Request.parts`: A request as operations with one writing section each.
* `Request.splitStage`, `splitThreads`: The threads of the parts.

## Theorems

* `update_parts`: Served alone, an `Update` with both values and gradients is
  its values part, then its gradients part.
* `splitStage_runs`: One section of a thread, matched by sections of the
  threads of its parts.
* `splits_of_sections`: Every interleaving is matched by one of the parts.
* `sections_linearizable_parts`: Every complete interleaving is a serial run
  of the parts.
-/

namespace Carls

section Parts

variable {K G V : Type}

/-- An `Update`'s values alone. -/
def UpdateRequest.valuesPart (r : UpdateRequest V) : UpdateRequest V :=
  { r with gradients := ∅ }

/-- An `Update`'s gradients alone. -/
def UpdateRequest.gradientsPart (r : UpdateRequest V) : UpdateRequest V :=
  { r with values := ∅ }

@[simp] theorem UpdateRequest.valuesPart_sessionHandle (r : UpdateRequest V) :
    r.valuesPart.sessionHandle = r.sessionHandle := rfl

@[simp] theorem UpdateRequest.valuesPart_values (r : UpdateRequest V) :
    r.valuesPart.values = r.values := rfl

@[simp] theorem UpdateRequest.valuesPart_gradients (r : UpdateRequest V) :
    r.valuesPart.gradients = ∅ := rfl

@[simp] theorem UpdateRequest.gradientsPart_sessionHandle (r : UpdateRequest V) :
    r.gradientsPart.sessionHandle = r.sessionHandle := rfl

@[simp] theorem UpdateRequest.gradientsPart_values (r : UpdateRequest V) :
    r.gradientsPart.values = ∅ := rfl

@[simp] theorem UpdateRequest.gradientsPart_gradients (r : UpdateRequest V) :
    r.gradientsPart.gradients = r.gradients := rfl

/-- A request as operations with at most one writing section each: an
    `Update` with both values and gradients is its values, then its
    gradients, and any other request is itself. -/
def Request.parts : Request K G V → List (Request K G V)
  | .update r =>
    if (Request.update r : Request K G V).atomic then [.update r]
    else [.update r.valuesPart, .update r.gradientsPart]
  | rq => [rq]

/-- The requests that are not one operation: the `Update`s with both values
    and gradients. -/
theorem Request.eq_update_of_atomic_eq_false {rq : Request K G V} (ha : rq.atomic = false) :
    ∃ r, rq = .update r ∧ r.values.keys ≠ [] ∧ r.gradients.keys ≠ [] := by
  cases rq with
  | update r => exact ⟨r, rfl, by simpa [Request.atomic] using ha⟩
  | _ => cases ha

theorem parts_of_atomic {rq : Request K G V} (ha : rq.atomic = true) : rq.parts = [rq] := by
  cases rq with
  | update r => simp [Request.parts, ha]
  | _ => rfl

theorem atomic_of_mem_parts {rq rq' : Request K G V} (h : rq' ∈ rq.parts) :
    rq'.atomic = true := by
  cases ha : rq.atomic
  · obtain ⟨r, rfl, -, -⟩ := Request.eq_update_of_atomic_eq_false ha
    simp only [Request.parts, ha, Bool.false_eq_true, if_false, List.mem_cons, List.mem_singleton,
      List.not_mem_nil, or_false] at h
    rcases h with rfl | rfl <;> simp [Request.atomic]
  · rw [parts_of_atomic ha, List.mem_singleton] at h
    rw [h, ha]

end Parts

section Update

variable {K G σ ω V : Type} (b : Backend K G σ ω V) (reg : Registry σ ω) (r : UpdateRequest V)

/-- Each part runs its own branch as the whole `Update` does, and skips the
    other. -/
@[simp] theorem writeValues_valuesPart : writeValues b reg r.valuesPart = writeValues b reg r :=
  rfl

@[simp] theorem writeGradients_gradientsPart :
    writeGradients b reg r.gradientsPart = writeGradients b reg r :=
  rfl

@[simp] theorem writeGradients_valuesPart :
    writeGradients b reg r.valuesPart = some ⟨Status.OK, (), reg⟩ := by
  simp [writeGradients]

@[simp] theorem writeValues_gradientsPart : writeValues b reg r.gradientsPart = some reg := by
  simp [writeValues]

variable {r}

/-- An `Update` with both values and gradients, served alone on any
    registry, is its values part served alone, then its gradients part
    served alone on the registry that leaves: the same status and the same
    registry. -/
theorem update_parts (hv : r.values.keys ≠ []) (hg : r.gradients.keys ≠ []) :
    update b reg r =
      (update b reg r.valuesPart).bind fun reply => update b reply.registry r.gradientsPart := by
  by_cases hh : r.sessionHandle = ""
  · simp [update, hh]
  -- The second start finds the session as the first left it.
  have hfix : ∀ reg', (startSessionIfNecessary b reg r.sessionHandle).2.StoreWrite
      r.sessionHandle reg' → startSessionIfNecessary b reg' r.sessionHandle =
        ((startSessionIfNecessary b reg r.sessionHandle).1, reg') :=
    fun _ hw => startSessionIfNecessary_of_storeWrite hw
  simp only [update, UpdateRequest.valuesPart_sessionHandle, UpdateRequest.valuesPart_values,
    UpdateRequest.valuesPart_gradients, UpdateRequest.gradientsPart_sessionHandle,
    UpdateRequest.gradientsPart_values, UpdateRequest.gradientsPart_gradients, if_neg hh, hv, hg,
    AList.keys_empty, and_false, false_and, if_false]
  by_cases hc : (startSessionIfNecessary b reg r.sessionHandle).1.code = .ok
  · rw [if_pos hc, if_pos hc, writeValues_valuesPart]
    cases hw : writeValues b (startSessionIfNecessary b reg r.sessionHandle).2 r with
    | none => rfl
    | some reg₁ =>
      -- The values part returns `OK`, and the gradients part applies the gradients.
      rw [Option.some_bind, Option.some_bind, writeGradients_valuesPart, Option.some_bind,
        hfix reg₁ (writeValues_registry hw), if_pos hc, writeValues_gradientsPart,
        Option.some_bind, writeGradients_gradientsPart]
  · rw [if_neg hc, if_neg hc, Option.some_bind,
      hfix _ (Registry.StoreWrite.refl _ _), if_neg hc]

/-- `writeThenStep`, on a fresh service, is its values part, then its
    gradients part. -/
theorem update_parts_writeThenStep :
    writeThenStep.values.keys ≠ [] ∧ writeThenStep.gradients.keys ≠ [] ∧
    update okBackend Registry.empty writeThenStep =
      (update okBackend Registry.empty writeThenStep.valuesPart).bind
        fun reply => update okBackend reply.registry writeThenStep.gradientsPart :=
  ⟨by decide, by decide, update_parts okBackend Registry.empty (by decide) (by decide)⟩

end Update

section Threads

variable {K G σ ω V : Type} (b : Backend K G σ ω V)

/-- The threads of the parts of `rq`, for a thread of `rq` at stage `s`: an
    `Update` with both values and gradients has one per part, and its values
    part returns `OK` once the session has started. -/
def Request.splitStage : Request K G V → Stage V → List (Stage V)
  | .update r, s =>
    if (Request.update r : Request K G V).atomic then [s]
    else
      match s with
      | .startUpdate _ => [.startUpdate r.valuesPart, .startUpdate r.gradientsPart]
      | .values _ => [.values r.valuesPart, .values r.gradientsPart]
      | .gradients _ => [.done Status.OK .update, .gradients r.gradientsPart]
      | .done st resp =>
        if r.sessionHandle ≠ "" ∧ configStatus b r.sessionHandle = Status.OK then
          [.done Status.OK .update, .done st resp]
        else [.done st resp, .done st resp]
      | s => [s, s]
  | _, s => [s]

/-- The threads of the parts of `rqs`, for threads `ts` of `rqs`. -/
def splitThreads (rqs : List (Request K G V)) (ts : List (Stage V)) : List (Stage V) :=
  (List.zipWith (Request.splitStage b) rqs ts).flatten

variable {b}

theorem splitStage_of_atomic {rq : Request K G V} (ha : rq.atomic = true) (s : Stage V) :
    rq.splitStage b s = [s] := by
  cases rq with
  | update r => simp [Request.splitStage, ha]
  | _ => rfl

/-- At their entries, the threads of the parts are the parts' entries. -/
theorem map_entry_parts (rq : Request K G V) :
    rq.parts.map (Request.entry b) = rq.splitStage b (rq.entry b) := by
  cases ha : rq.atomic
  · obtain ⟨r, rfl, hv, hg⟩ := Request.eq_update_of_atomic_eq_false ha
    by_cases hh : r.sessionHandle = ""
    · simp [Request.parts, Request.splitStage, Request.entry, ha, hh]
    · simp [Request.parts, Request.splitStage, Request.entry, ha, hh, hv, hg]
  · rw [parts_of_atomic ha, splitStage_of_atomic ha]
    rfl

theorem splitThreads_entries :
    ∀ rqs : List (Request K G V),
      splitThreads b rqs (rqs.map (Request.entry b)) = (rqs.flatMap Request.parts).map (Request.entry b)
  | [] => rfl
  | rq :: rqs => by
    rw [List.flatMap_cons, List.map_append, map_entry_parts, ← splitThreads_entries rqs]
    rfl

theorem splitThreads_middle {rpre rpost : List (Request K G V)} {pre post : List (Stage V)}
    (hl : rpre.length = pre.length) (rq : Request K G V) (s : Stage V) :
    splitThreads b (rpre ++ rq :: rpost) (pre ++ s :: post) =
      splitThreads b rpre pre ++ rq.splitStage b s ++ splitThreads b rpost post := by
  simp only [splitThreads, List.zipWith_append _ _ _ _ _ hl, List.zipWith_cons_cons,
    List.flatten_append, List.flatten_cons, List.append_assoc]

theorem all_finished_splitStage (rq : Request K G V) (st : Status) (resp : Response V) :
    (rq.splitStage b (.done st resp)).all Stage.finished = true := by
  cases rq with
  | update r =>
    simp only [Request.splitStage]
    split_ifs <;> rfl
  | _ => rfl

theorem finished_of_mem_splitThreads :
    ∀ {rqs : List (Request K G V)} {ts : List (Stage V)}, (∀ s ∈ ts, s.finished = true) →
      ∀ s ∈ splitThreads b rqs ts, s.finished = true
  | [], _, _, _, hs => by simp [splitThreads] at hs
  | _ :: _, [], _, _, hs => by simp [splitThreads] at hs
  | rq :: rqs, t :: ts, hd, s, hs => by
    obtain ⟨st, resp, rfl⟩ := Stage.eq_done_of_finished (hd t (List.mem_cons_self _ _))
    rcases List.mem_append.mp hs with hs | hs
    · exact List.all_eq_true.mp (all_finished_splitStage rq st resp) s hs
    · exact finished_of_mem_splitThreads (fun s' h => hd s' (List.mem_cons_of_mem _ h)) s hs

theorem Sections.first {reg reg' : Registry σ ω} {x x' y : Stage V} (pre post : List (Stage V))
    (h : x.step b reg = some (x', reg')) :
    Sections b ⟨reg, pre ++ [x, y] ++ post⟩ ⟨reg', pre ++ [x', y] ++ post⟩ := by
  simpa using Sections.run pre (y :: post) h

theorem Sections.second {reg reg' : Registry σ ω} {x y y' : Stage V} (pre post : List (Stage V))
    (h : y.step b reg = some (y', reg')) :
    Sections b ⟨reg, pre ++ [x, y] ++ post⟩ ⟨reg', pre ++ [x, y'] ++ post⟩ := by
  simpa using Sections.run (pre ++ [x]) post h

/-- One section of a thread, matched by sections of the threads of its
    request's parts, which leave the registry as the section does. -/
theorem splitStage_runs {rq : Request K G V} {s s' : Stage V} {reg reg' : Registry σ ω}
    (hin : InFlight b rq s) (hi : Buildable b reg) (hs : s.step b reg = some (s', reg'))
    (pre post : List (Stage V)) :
    Relation.ReflTransGen (Sections b) ⟨reg, pre ++ rq.splitStage b s ++ post⟩
      ⟨reg', pre ++ rq.splitStage b s' ++ post⟩ := by
  cases ha : rq.atomic
  swap
  · -- One operation: one section.
    rw [splitStage_of_atomic ha, splitStage_of_atomic ha]
    simpa using Relation.ReflTransGen.single (Sections.run pre post hs)
  obtain ⟨r, rfl, hv, hg⟩ := Request.eq_update_of_atomic_eq_false ha
  cases hin with
  | entry =>
    by_cases hh : r.sessionHandle = ""
    · simp [Request.entry, hh, Stage.step] at hs
    have he : (Request.update r : Request K G V).entry b = .startUpdate r := by
      simp [Request.entry, hh, hv]
    rw [he] at hs ⊢
    obtain ⟨rfl, rfl⟩ := Prod.mk.inj (Option.some.inj hs)
    -- Both starts; the second finds the session as the first left it.
    have hfix := startSessionIfNecessary_of_storeWrite
      (Registry.StoreWrite.refl r.sessionHandle (startSessionIfNecessary b reg r.sessionHandle).2)
    have h₁ : (Stage.startUpdate r.valuesPart).step b reg = some
        (afterStart (startSessionIfNecessary b reg r.sessionHandle).1 (.values r.valuesPart) .update,
          (startSessionIfNecessary b reg r.sessionHandle).2) := rfl
    have h₂ : (Stage.startUpdate r.gradientsPart).step b
        (startSessionIfNecessary b reg r.sessionHandle).2 = some
        (afterStart (startSessionIfNecessary b reg r.sessionHandle).1 (.values r.gradientsPart) .update,
          (startSessionIfNecessary b reg r.sessionHandle).2) := by
      simp only [Stage.step, UpdateRequest.gradientsPart_sessionHandle, hfix]
    have hafter : Request.splitStage b (.update r)
        (afterStart (startSessionIfNecessary b reg r.sessionHandle).1 (.values r) .update) =
        [afterStart (startSessionIfNecessary b reg r.sessionHandle).1 (.values r.valuesPart) .update,
          afterStart (startSessionIfNecessary b reg r.sessionHandle).1 (.values r.gradientsPart)
            .update] := by
      rw [hi.fst_startSessionIfNecessary]
      unfold afterStart
      split_ifs with hc
      · simp [Request.splitStage, ha]
      · have hne : configStatus b r.sessionHandle ≠ Status.OK := fun e => hc (by rw [e]; rfl)
        simp [Request.splitStage, ha, hne]
    rw [hafter, show Request.splitStage b (.update r) (.startUpdate r) =
      [.startUpdate r.valuesPart, .startUpdate r.gradientsPart] by simp [Request.splitStage, ha]]
    exact .tail (.single (Sections.first pre post h₁)) (Sections.second pre post h₂)
  | values r he hok =>
    obtain ⟨_, hw, ⟨⟩⟩ := Option.map_eq_some'.mp hs
    -- The first part's values branch, its empty gradient branch, and the
    -- second part's empty values branch.
    have h₁ : (Stage.values r.valuesPart).step b reg = some (.gradients r.valuesPart, reg') := by
      simp [Stage.step, hw]
    have h₂ : (Stage.gradients r.valuesPart).step b reg' =
        some (.done Status.OK .update, reg') := by
      simp [Stage.step]
    have h₃ : (Stage.values r.gradientsPart).step b reg' = some (.gradients r.gradientsPart, reg') := by
      simp [Stage.step]
    simp only [Request.splitStage, ha, Bool.false_eq_true, if_false]
    exact .tail (.tail (.single (Sections.first pre post h₁)) (Sections.first pre post h₂))
      (Sections.second pre post h₃)
  | gradients r he hok =>
    obtain ⟨reply, hw, ⟨⟩⟩ := Option.map_eq_some'.mp hs
    have hh : r.sessionHandle ≠ "" := fun e => by simp [Request.entry, e] at he
    -- The second part's gradient branch.
    have h₁ : (Stage.gradients r.gradientsPart).step b reg =
        some (.done reply.status .update, reply.registry) := by
      simp [Stage.step, hw]
    simp only [Request.splitStage, ha, Bool.false_eq_true, if_false, ne_eq, hh, not_false_eq_true,
      hok, and_self, if_true]
    exact .single (Sections.second pre post h₁)
  | done => cases hs

/-- Every interleaving of the sections of `rqs` is matched by one of the
    sections of their parts, which ends on the same registry with the threads
    of the parts. -/
theorem splits_of_sections {reg₀ : Registry σ ω} (hi : Buildable b reg₀)
    (rqs : List (Request K G V)) {c : Config σ ω V}
    (hrun : Relation.ReflTransGen (Sections b) ⟨reg₀, rqs.map (Request.entry b)⟩ c) :
    List.Forall₂ (InFlight b) rqs c.threads ∧ Buildable b c.registry ∧
    Relation.ReflTransGen (Sections b) ⟨reg₀, (rqs.flatMap Request.parts).map (Request.entry b)⟩
      ⟨c.registry, splitThreads b rqs c.threads⟩ := by
  induction hrun with
  | refl =>
    refine ⟨List.forall₂_map_right_iff.mpr (List.forall₂_same.mpr fun rq _ => .entry rq), hi, ?_⟩
    rw [splitThreads_entries]
  | tail _ hs ih =>
    obtain ⟨hf, hi', hsplit⟩ := ih
    cases hs with
    | run pre post hstep =>
      obtain ⟨rpre, rq, rpost, rfl, hpre, hin, hpost⟩ := forall₂_append_cons hf
      refine ⟨List.rel_append hpre (.cons (hin.step hi' hstep) hpost), hi'.step hstep,
        hsplit.trans ?_⟩
      rw [splitThreads_middle hpre.length_eq, splitThreads_middle hpre.length_eq]
      exact splitStage_runs hin hi' hstep _ _

end Threads

/-- `writeThenStep`, an `Update` of `emb` with both values and gradients, and
    a pure lookup of its key, admitted together. -/
def betweenBranches : List (Request Unit Unit Int) :=
  [.update writeThenStep, .lookup ⟨"emb", ["first"], false⟩]

/-- The registry after the interleaving of `betweenBranches` in which the
    lookup runs between the update's two branches. -/
def betweenBranchesRegistry : Registry (String → Option Int) Unit :=
  let started := (startSessionIfNecessary okBackend Registry.empty "emb").2
  let written := (writeValues okBackend started writeThenStep).getD Registry.empty
  ((writeGradients okBackend written writeThenStep).map Reply.registry).getD Registry.empty

/-- What the requests of `betweenBranches` return there: the lookup reads the
    value the update wrote before its gradient step. -/
def betweenBranchesThreads : List (Stage Int) :=
  [.done Status.OK .update, .done Status.OK (.lookup ⟨(∅ : ProtoMap Int).insert "first" 2⟩)]

/-- The update's start, the lookup's start, the values branch, the lookup's
    section, and the gradient branch. -/
theorem betweenBranches_sections :
    Relation.ReflTransGen (Sections okBackend)
      ⟨Registry.empty, betweenBranches.map (Request.entry okBackend)⟩
      ⟨betweenBranchesRegistry, betweenBranchesThreads⟩ :=
  .tail (.tail (.tail (.tail
    (.single (Sections.run [] [.startLookup ⟨"emb", ["first"], false⟩] rfl))
    (Sections.run [.values writeThenStep] [] rfl))
    (Sections.run [] [.lookup ⟨"emb", ["first"], false⟩] rfl))
    (Sections.run [.gradients writeThenStep] [] rfl))
    (Sections.run [] [.done Status.OK (.lookup ⟨(∅ : ProtoMap Int).insert "first" 2⟩)] rfl)

-- The update is its values part, which returns `OK`, and its gradients part.
example : splitThreads okBackend betweenBranches betweenBranchesThreads =
    [.done Status.OK .update, .done Status.OK .update,
      .done Status.OK (.lookup ⟨(∅ : ProtoMap Int).insert "first" 2⟩)] := rfl

end Carls
