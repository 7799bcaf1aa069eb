import Carls.Concurrent.Threads
import Carls.Theory.Construction

/-!
# No Missing Entry Under Any Interleaving

`Lookup` and `Update` take `map_mu_` again after their start and index
`es_map_` with their handle (lines 70, 73, 115, 143 and 172). Between the
start and that section, other handlers run. The indexing is safe only if the
handle still has its store then: under the reader lock, `operator[]` on a
missing handle would insert a null pointer and dereference it.

The argument is an invariant of configurations, `Guarded`: every handler
about to index `es_map_` finds its handle there. A start that returns `OK`
leaves its handle a store (`mem_of_startSessionIfNecessary_ok`), and no
section removes an entry of either map (`Stage.step_mem`), so the handle
keeps its store until its section runs, whatever runs in between. A guarded
handler's section is defined (`Stage.isSome_step`), which covers
`gd_map_[h]` at line 163 too: it follows the `contains` test of line 134 in
the same section.

The registry invariant of `Theory.Construction` survives interleaving as
well (`sessionsConstructed_of_interleaved`): its proof only ever looked at
one section at a time.

## Main definitions

* `Stage.indexes`: The handle a stage is about to index `es_map_` with.
* `Stage.finished`: A handler that has returned.
* `Guarded`: Every handler about to index `es_map_` finds its handle there.
* `raceConfig`: A lookup and an update of one session, both past their start.

## Theorems

* `Stage.step_mem`: No section removes an entry.
* `indexes_afterStart_mem`, `Stage.indexes_step`: A section leaves its
  handler guarded.
* `Stage.isSome_step`: A guarded section dereferences no missing entry.
* `Step.guarded`: Every step keeps `Guarded`.
* `optimizer_retained`: No interleaving replaces or removes an optimizer.
* `sessionsConstructed_of_interleaved`: Optimizers and stores agree under
  every interleaving.
* `interleaved_safe`: Under every interleaving, no handler dereferences a
  missing entry.
-/

namespace Carls

section Stages

variable {V : Type}

/-- The handle a stage is about to index `es_map_` with. -/
def Stage.indexes : Stage V → Option String
  | .lookup r => some r.sessionHandle
  | .values r => some r.sessionHandle
  | .gradients r => some r.sessionHandle
  | _ => none

/-- A handler that has returned. -/
def Stage.finished : Stage V → Bool
  | .done _ _ => true
  | _ => false

theorem indexes_afterStart (status : Status) (next : Stage V) (failed : Response V) :
    (afterStart status next failed).indexes = if status.code = .ok then next.indexes else none := by
  unfold afterStart
  split_ifs <;> rfl

theorem Request.indexes_entry {K G σ ω : Type} (b : Backend K G σ ω V) (rq : Request K G V) :
    (rq.entry b).indexes = none := by
  cases rq <;> simp only [Request.entry] <;> (try split_ifs) <;> rfl

end Stages

section Step

variable {K G σ ω V : Type} {b : Backend K G σ ω V}

/-- No section removes an entry from either map. -/
theorem Stage.step_mem {reg reg' : Registry σ ω} {s s' : Stage V}
    (hs : s.step b reg = some (s', reg')) :
    (∀ h ∈ reg.esMap, h ∈ reg'.esMap) ∧ (∀ h ∈ reg.gdMap, h ∈ reg'.gdMap) := by
  obtain ⟨-, rfl⟩ | ⟨h, -, rfl | hw⟩ := Stage.step_registry hs
  · exact ⟨fun _ => id, fun _ => id⟩
  · exact ⟨fun _ => (addsOnly_startSessionIfNecessary b reg h).mem_esMap,
      fun _ => (addsOnly_startSessionIfNecessary b reg h).mem_gdMap⟩
  · exact ⟨fun h' => (hw.mem_esMap h').mpr, fun h' => by rw [hw.gdMap_eq]; exact id⟩

/-- After a start on `h`, a handler about to index `es_map_` indexes it with
    `h`, which the start left a store. -/
theorem indexes_afterStart_mem {reg : Registry σ ω} {h : String} {next : Stage V}
    {failed : Response V} (hn : ∀ h', next.indexes = some h' → h' = h) (h' : String)
    (hi : (afterStart (startSessionIfNecessary b reg h).1 next failed).indexes = some h') :
    h' ∈ (startSessionIfNecessary b reg h).2.esMap := by
  rw [indexes_afterStart] at hi
  split_ifs at hi with hok
  rw [hn h' hi]
  exact (mem_of_startSessionIfNecessary_ok hok).1

/-- A section leaves its handler guarded: after a start that returned `OK`,
    the handle has its store, and the values branch keeps it. -/
theorem Stage.indexes_step {reg reg' : Registry σ ω} {s s' : Stage V}
    (hg : ∀ h, s.indexes = some h → h ∈ reg.esMap) (hs : s.step b reg = some (s', reg')) :
    ∀ h, s'.indexes = some h → h ∈ reg'.esMap := by
  cases s with
  | startSession _ =>
    obtain ⟨rfl, rfl⟩ := Prod.mk.inj (Option.some.inj hs)
    exact indexes_afterStart_mem (fun _ hi => by cases hi)
  | startLookup _ =>
    obtain ⟨rfl, rfl⟩ := Prod.mk.inj (Option.some.inj hs)
    exact indexes_afterStart_mem fun _ hi => (Option.some.inj hi).symm
  | startUpdate _ =>
    obtain ⟨rfl, rfl⟩ := Prod.mk.inj (Option.some.inj hs)
    exact indexes_afterStart_mem fun _ hi => (Option.some.inj hi).symm
  | lookup _ | gradients _ =>
    obtain ⟨reply, -, ⟨⟩⟩ := Option.map_eq_some'.mp hs
    exact fun _ hi => by cases hi
  | values _ =>
    -- The values branch keeps the store the start left.
    obtain ⟨reg₁, hr, ⟨⟩⟩ := Option.map_eq_some'.mp hs
    rintro _ ⟨⟩
    exact ((writeValues_registry hr).mem_esMap _).mpr (hg _ rfl)
  | knowledgeBankSize =>
    obtain ⟨rfl, rfl⟩ := Prod.mk.inj (Option.some.inj hs)
    exact fun _ hi => by cases hi
  | done _ _ => cases hs

/-- A guarded handler that has not returned can run its section. -/
theorem Stage.isSome_step {reg : Registry σ ω} {s : Stage V} (hf : s.finished = false)
    (hg : ∀ h, s.indexes = some h → h ∈ reg.esMap) : (s.step b reg).isSome := by
  cases s with
  | startSession _ | startLookup _ | startUpdate _ | knowledgeBankSize => rfl
  | lookup r => simpa [Stage.step] using isSome_lookupSection (hg _ rfl)
  | values r => simpa [Stage.step] using isSome_writeValues (hg _ rfl)
  | gradients r => simpa [Stage.step] using isSome_writeGradients (hg _ rfl)
  | done _ _ => cases hf

end Step

/-- Every handler about to index `es_map_` finds its handle there. -/
def Guarded {σ ω V : Type} (c : Config σ ω V) : Prop :=
  ∀ s ∈ c.threads, ∀ h, s.indexes = some h → h ∈ c.registry.esMap

section Invariant

variable {K G σ ω V : Type} {b : Backend K G σ ω V}

theorem Step.mem {c c' : Config σ ω V} (hs : Step b c c') :
    (∀ h ∈ c.registry.esMap, h ∈ c'.registry.esMap) ∧
    (∀ h ∈ c.registry.gdMap, h ∈ c'.registry.gdMap) := by
  cases hs with
  | spawn => exact ⟨fun _ => id, fun _ => id⟩
  | run _ _ h => exact Stage.step_mem h

theorem Step.guarded {c c' : Config σ ω V} (hs : Step b c c') (hc : Guarded c) : Guarded c' := by
  cases hs with
  | spawn reg threads rq =>
    rintro s (_ | ⟨_, hs⟩) h hi
    · rw [Request.indexes_entry] at hi; cases hi
    · exact hc s hs h hi
  | run pre post hstep =>
    -- The running handler stays guarded; every other keeps its handle's store.
    intro t ht h hi
    rcases List.mem_append.mp ht with ht | ht | ⟨_, ht⟩
    · exact (Stage.step_mem hstep).1 h (hc t (List.mem_append_left _ ht) h hi)
    · exact Stage.indexes_step (hc _ (List.mem_append_right _ (List.mem_cons_self _ _))) hstep h hi
    · exact (Stage.step_mem hstep).1 h
        (hc t (List.mem_append_right _ (List.mem_cons_of_mem _ ht)) h hi)

theorem guarded_of_interleaved {c : Config σ ω V} (hc : Interleaved b c) : Guarded c := by
  induction hc with
  | refl => intro s hs; cases hs
  | tail _ hs ih => exact hs.guarded ih

/-- Under every interleaving, an optimizer comes with its store and its
    configuration, and a store whose configuration asks for an optimizer has
    one unless the factory cannot build it. -/
theorem sessionsConstructed_of_interleaved {c : Config σ ω V} (hc : Interleaved b c) :
    SessionsConstructed b c.registry :=
  hc.registry_induction sessionsConstructed_empty (fun _ h hi => hi.startSessionIfNecessary h)
    fun _ _ _ hi hw => hi.storeWrite hw

/-- A lookup of `emb` in flight on a fresh service, past its start. -/
theorem sessionsConstructed_of_interleaved_emb :
    Interleaved okBackend ⟨(startSessionIfNecessary okBackend Registry.empty "emb").2,
      [.lookup ⟨"emb", ["first"], true⟩]⟩ ∧
    SessionsConstructed okBackend (startSessionIfNecessary okBackend Registry.empty "emb").2 :=
  have h : (Request.entry okBackend (.lookup ⟨"emb", ["first"], true⟩)).step okBackend
      Registry.empty = some (.lookup ⟨"emb", ["first"], true⟩,
        (startSessionIfNecessary okBackend Registry.empty "emb").2) := rfl
  have hc : Interleaved okBackend ⟨(startSessionIfNecessary okBackend Registry.empty "emb").2,
      [.lookup ⟨"emb", ["first"], true⟩]⟩ :=
    .tail (.single (.spawn _ _ (.lookup ⟨"emb", ["first"], true⟩))) (.run [] [] h)
  ⟨hc, sessionsConstructed_of_interleaved hc⟩

/-- A step keeps every optimizer: a start only adds one where there was none,
    and a section writes only a store. -/
theorem Step.gdMap_of_lookup {K G σ ω V : Type} {b : Backend K G σ ω V} {c c' : Config σ ω V}
    (hs : Step b c c') {h : String} {opt : ω} (ho : c.registry.gdMap.lookup h = some opt) :
    c'.registry.gdMap.lookup h = some opt := by
  cases hs with
  | spawn => exact ho
  | run _ _ hstep =>
    obtain ⟨-, rfl⟩ | ⟨h', -, rfl | hw⟩ := Stage.step_registry hstep
    · exact ho
    · exact (addsOnly_startSessionIfNecessary b _ h').gdMap_of_lookup ho
    · rw [hw.gdMap_eq]; exact ho

/-- Under every interleaving, an optimizer once in `gd_map_` stays the one
    `gd_map_` holds for its handle: however many starts of that handle race,
    none replaces it, and no step removes it. -/
theorem optimizer_retained {K G σ ω V : Type} (b : Backend K G σ ω V) {c c' : Config σ ω V}
    (hrun : Relation.ReflTransGen (Step b) c c') {h : String} {opt : ω}
    (ho : c.registry.gdMap.lookup h = some opt) : c'.registry.gdMap.lookup h = some opt := by
  induction hrun with
  | refl => exact ho
  | tail _ hs ih => exact hs.gdMap_of_lookup ih

/-- A second start of `emb` runs after the first built its optimizer. -/
theorem optimizer_retained_emb :
    Relation.ReflTransGen (Step okBackend)
      ⟨(startSessionIfNecessary okBackend Registry.empty "emb").2, []⟩
      ⟨(startSessionIfNecessary okBackend Registry.empty "emb").2,
        [.lookup ⟨"emb", ["first"], true⟩]⟩ ∧
    (startSessionIfNecessary okBackend Registry.empty "emb").2.gdMap.lookup "emb" = some () ∧
    (startSessionIfNecessary okBackend Registry.empty "emb").2.gdMap.lookup "emb" = some () :=
  have h : (Request.entry okBackend (.lookup ⟨"emb", ["first"], true⟩)).step okBackend
      (startSessionIfNecessary okBackend Registry.empty "emb").2 = some
        (.lookup ⟨"emb", ["first"], true⟩,
          (startSessionIfNecessary okBackend Registry.empty "emb").2) := rfl
  have hrun : Relation.ReflTransGen (Step okBackend)
      ⟨(startSessionIfNecessary okBackend Registry.empty "emb").2, []⟩
      ⟨(startSessionIfNecessary okBackend Registry.empty "emb").2,
        [.lookup ⟨"emb", ["first"], true⟩]⟩ :=
    .tail (.single (.spawn _ _ (.lookup ⟨"emb", ["first"], true⟩))) (.run [] [] h)
  have ho : (startSessionIfNecessary okBackend Registry.empty "emb").2.gdMap.lookup "emb" =
      some () := rfl
  ⟨hrun, ho, optimizer_retained okBackend hrun ho⟩

end Invariant

/-- Under every interleaving of the sections of any requests: every handler
    about to index `es_map_` finds its handle there; every handler that has
    not returned can run its next section without dereferencing a missing
    store or optimizer; and no step removes an entry of either map. -/
theorem interleaved_safe {K G σ ω V : Type} (b : Backend K G σ ω V) {c : Config σ ω V}
    (hc : Interleaved b c) :
    (∀ s ∈ c.threads, ∀ h, s.indexes = some h → h ∈ c.registry.esMap) ∧
    (∀ s ∈ c.threads, s.finished = false → (s.step b c.registry).isSome) ∧
    ∀ c', Step b c c' → (∀ h ∈ c.registry.esMap, h ∈ c'.registry.esMap) ∧
      (∀ h ∈ c.registry.gdMap, h ∈ c'.registry.gdMap) := by
  have hg := guarded_of_interleaved hc
  exact ⟨hg, fun s hs hf => Stage.isSome_step hf (hg s hs), fun _ => Step.mem⟩

/-- A lookup with update of `first` on session `emb`. -/
def raceLookup : LookupRequest := ⟨"emb", ["first"], true⟩

/-- An update that writes `first` on session `emb`. -/
def raceUpdate : UpdateRequest Int := ⟨"emb", (∅ : ProtoMap Int).insert "first" 1, ∅⟩

/-- `raceLookup` and `raceUpdate` in flight on a fresh service, each past its
    start and about to index `es_map_`: the lookup's start built the session,
    and the update's start, run second, found it. -/
def raceConfig : Config (String → Option Int) Unit Int :=
  ⟨(startSessionIfNecessary (exampleBackend fun _ _ => some ()) Registry.empty "emb").2,
    [.values raceUpdate, .lookup raceLookup]⟩

theorem interleaved_safe_race :
    Interleaved (exampleBackend fun _ _ => some ()) raceConfig ∧
    (∀ s ∈ raceConfig.threads, ∀ h, s.indexes = some h → h ∈ raceConfig.registry.esMap) ∧
    (∀ s ∈ raceConfig.threads, s.finished = false →
      (s.step (exampleBackend fun _ _ => some ()) raceConfig.registry).isSome) ∧
    ∀ c', Step (exampleBackend fun _ _ => some ()) raceConfig c' →
      (∀ h ∈ raceConfig.registry.esMap, h ∈ c'.registry.esMap) ∧
      (∀ h ∈ raceConfig.registry.gdMap, h ∈ c'.registry.gdMap) :=
  have h₁ : (Request.entry (exampleBackend fun _ _ => some ()) (.lookup raceLookup)).step
      (exampleBackend fun _ _ => some ()) Registry.empty =
        some (.lookup raceLookup, raceConfig.registry) := rfl
  have h₂ : (Request.entry (exampleBackend fun _ _ => some ()) (.update raceUpdate)).step
      (exampleBackend fun _ _ => some ()) raceConfig.registry =
        some (.values raceUpdate, raceConfig.registry) := rfl
  have hc : Interleaved (exampleBackend fun _ _ => some ()) raceConfig :=
    .tail (.tail (.tail (.single (.spawn _ _ (.lookup raceLookup))) (.spawn _ _ (.update raceUpdate)))
      (.run [Request.entry _ (.update raceUpdate)] [] h₁)) (.run [] [.lookup raceLookup] h₂)
  ⟨hc, interleaved_safe _ hc⟩

end Carls
