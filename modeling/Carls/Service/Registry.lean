import Carls.Service.Proto

/-!
# The Session Registry

`es_map_` and `gd_map_`, the two maps the service guards with `map_mu_`, and
`StartSessionIfNecessary`, the only code that adds to them.

Both maps hold `std::unique_ptr`s, and the service reaches an object through
`es_map_[h]->` or `gd_map_[h]->`. An absent handle there would be
default-inserted as a null pointer and dereferenced at once, which is
undefined behaviour, so the model keeps no null pointers in the maps and
reads `map[h]->` as `lookup h`, a miss being the undefined outcome `none`.
The only other writes are the two assignments in `StartSessionIfNecessary`,
and each comes after a check that the factory did not return `nullptr`.

A store's methods change the object behind the pointer, not the map; the
model writes the object's new state back with `AList.replace`, which keeps
the map's keys and their order. Mathlib has no lookup lemma for `replace`,
so `lookup_replace` is proved here.

## Main definitions

* `Registry`: The two maps.
* `Registry.slot`: The entries of one handle.
* `createKnowledgeBank`: Lines 188–197, a store for a handle without one.
* `createOptimizer`: Lines 198–208, an optimizer when the configuration asks.
* `startSessionIfNecessary`: Both, after parsing the handle.

## Theorems

* `lookup_replace`: Reading a map after one value was replaced.
* `createKnowledgeBank_cases`, `createOptimizer_cases`: Everything one
  creation can do.
* `addsOnly_startSessionIfNecessary`: Only missing entries of the handle are
  added; other handles are untouched.
* `lookup_esMap_startSessionIfNecessary`,
  `lookup_gdMap_startSessionIfNecessary`: The handle's entries afterwards.
* `startSessionIfNecessary_fst`: The status is read off those entries.
* `mem_of_startSessionIfNecessary_ok`: Success leaves a store, and an
  optimizer when the configuration asks for one.
-/

namespace Carls

section Replace

variable {γ : Type}

theorem dlookup_kreplace (a a' : String) (b : γ) :
    ∀ l : List (Σ _ : String, γ),
      (l.kreplace a b).dlookup a' = if a' = a ∧ a ∈ l.keys then some b else l.dlookup a'
  | [] => by simp [List.kreplace]
  | ⟨c, d⟩ :: l => by
    let f : (Σ _ : String, γ) → Option (Σ _ : String, γ) :=
      fun s => if a = s.1 then some ⟨a, b⟩ else none
    by_cases hac : a = c
    · subst hac
      rw [List.kreplace, List.lookmap_cons_some f _ (if_pos rfl)]
      by_cases h : a' = a
      · subst h; simp [List.dlookup_cons_eq]
      · simp [h]
    · -- The first entry has another key, so the replacement happens in the tail.
      have ih := dlookup_kreplace a a' b l
      rw [List.kreplace, List.lookmap_cons_none f _ (if_neg hac), ← List.kreplace]
      by_cases h : a' = c
      · subst h; simp [List.dlookup_cons_eq, Ne.symm hac]
      · simpa [h, hac] using ih

theorem lookup_replace (s : AList fun _ : String => γ) (a a' : String) (b : γ) :
    (s.replace a b).lookup a' = if a' = a ∧ a ∈ s then some b else s.lookup a' := by
  simp only [AList.lookup, AList.replace, dlookup_kreplace, AList.mem_keys, AList.keys]

@[simp] theorem lookup_replace_self {s : AList fun _ : String => γ} {a : String} (b : γ)
    (h : a ∈ s) : (s.replace a b).lookup a = some b := by
  simp [lookup_replace, h]

@[simp] theorem lookup_replace_ne {s : AList fun _ : String => γ} {a a' : String} (b : γ)
    (h : a' ≠ a) : (s.replace a b).lookup a' = s.lookup a' := by
  simp [lookup_replace, h]

theorem mem_of_lookup {s : AList fun _ : String => γ} {a : String} {b : γ}
    (h : s.lookup a = some b) : a ∈ s :=
  AList.lookup_isSome.mp (by simp [h])

end Replace

/-- The state of a `KnowledgeBankGrpcServiceImpl`: a store and an optimizer
    per session handle. -/
structure Registry (σ ω : Type) where
  esMap : AList fun _ : String => σ
  gdMap : AList fun _ : String => ω

namespace Registry

variable {σ ω : Type}

/-- The state the constructor leaves: both maps empty. -/
def empty : Registry σ ω := ⟨∅, ∅⟩

/-- The entries of handle `h` in both maps. -/
def slot (reg : Registry σ ω) (h : String) : Option σ × Option ω :=
  (reg.esMap.lookup h, reg.gdMap.lookup h)

/-- `KnowledgeBankSize`: the number of sessions with a store. -/
def knowledgeBankSize (reg : Registry σ ω) : Nat := reg.esMap.keys.length

/-- The registry once the store of `h` has moved to state `kb`. The map is not
    written, only the object its pointer reaches. -/
def setStore (reg : Registry σ ω) (h : String) (kb : σ) : Registry σ ω :=
  { reg with esMap := reg.esMap.replace h kb }

@[simp] theorem setStore_gdMap (reg : Registry σ ω) (h : String) (kb : σ) :
    (reg.setStore h kb).gdMap = reg.gdMap := rfl

@[simp] theorem mem_setStore_esMap (reg : Registry σ ω) (h h' : String) (kb : σ) :
    h' ∈ (reg.setStore h kb).esMap ↔ h' ∈ reg.esMap := AList.mem_replace

@[simp] theorem lookup_setStore_self {reg : Registry σ ω} {h : String} (kb : σ)
    (hm : h ∈ reg.esMap) : (reg.setStore h kb).esMap.lookup h = some kb :=
  lookup_replace_self kb hm

@[simp] theorem lookup_setStore_ne (reg : Registry σ ω) {h h' : String} (kb : σ)
    (hne : h' ≠ h) : (reg.setStore h kb).esMap.lookup h' = reg.esMap.lookup h' :=
  lookup_replace_ne kb hne

@[simp] theorem slot_setStore_self {reg : Registry σ ω} {h : String} (kb : σ)
    (hm : h ∈ reg.esMap) : (reg.setStore h kb).slot h = (some kb, reg.gdMap.lookup h) := by
  simp [slot, hm]

theorem slot_setStore_ne (reg : Registry σ ω) {h h' : String} (kb : σ) (hne : h' ≠ h) :
    (reg.setStore h kb).slot h' = reg.slot h' := by
  simp [slot, hne]

/-- `reg'` differs from `reg` at most in the state of the store of `h`: both
    maps keep their keys, and nothing else changes. -/
structure StoreWrite (h : String) (reg reg' : Registry σ ω) : Prop where
  gdMap_eq : reg'.gdMap = reg.gdMap
  mem_esMap : ∀ h', h' ∈ reg'.esMap ↔ h' ∈ reg.esMap
  lookup_ne : ∀ h', h' ≠ h → reg'.esMap.lookup h' = reg.esMap.lookup h'

theorem StoreWrite.refl (h : String) (reg : Registry σ ω) : StoreWrite h reg reg :=
  ⟨rfl, fun _ => .rfl, fun _ _ => rfl⟩

theorem StoreWrite.trans {h : String} {reg₁ reg₂ reg₃ : Registry σ ω}
    (h₁ : StoreWrite h reg₁ reg₂) (h₂ : StoreWrite h reg₂ reg₃) : StoreWrite h reg₁ reg₃ :=
  ⟨h₂.gdMap_eq.trans h₁.gdMap_eq, fun h' => (h₂.mem_esMap h').trans (h₁.mem_esMap h'),
   fun h' hne => (h₂.lookup_ne h' hne).trans (h₁.lookup_ne h' hne)⟩

theorem storeWrite_setStore (reg : Registry σ ω) (h : String) (kb : σ) :
    StoreWrite h reg (reg.setStore h kb) :=
  ⟨rfl, fun h' => mem_setStore_esMap reg h h' kb, fun _ hne => lookup_setStore_ne reg kb hne⟩

theorem StoreWrite.slot_ne {h h' : String} {reg reg' : Registry σ ω} (hw : StoreWrite h reg reg')
    (hne : h' ≠ h) : reg'.slot h' = reg.slot h' := by
  simp [slot, hw.gdMap_eq, hw.lookup_ne h' hne]

@[simp] theorem knowledgeBankSize_setStore (reg : Registry σ ω) (h : String) (kb : σ) :
    (reg.setStore h kb).knowledgeBankSize = reg.knowledgeBankSize := by
  simp [knowledgeBankSize, setStore]

/-- A write to a store keeps the number of sessions: the keys are the same
    and distinct. -/
theorem StoreWrite.knowledgeBankSize_eq {h : String} {reg reg' : Registry σ ω}
    (hw : StoreWrite h reg reg') : reg'.knowledgeBankSize = reg.knowledgeBankSize :=
  ((List.perm_ext_iff_of_nodup reg'.esMap.keys_nodup reg.esMap.keys_nodup).mpr fun a => by
    rw [← AList.mem_keys, ← AList.mem_keys]; exact hw.mem_esMap a).length_eq

/-- `reg'` keeps every entry of `reg` and adds only entries for `h` that `reg`
    lacked: nothing is replaced, nothing removed, no other handle touched. -/
structure AddsOnly (h : String) (reg reg' : Registry σ ω) : Prop where
  es : ∀ h', reg'.esMap.lookup h' = reg.esMap.lookup h' ∨ h' = h ∧ reg.esMap.lookup h' = none
  gd : ∀ h', reg'.gdMap.lookup h' = reg.gdMap.lookup h' ∨ h' = h ∧ reg.gdMap.lookup h' = none

theorem AddsOnly.refl (h : String) (reg : Registry σ ω) : AddsOnly h reg reg :=
  ⟨fun _ => .inl rfl, fun _ => .inl rfl⟩

theorem addsOnly_lookup_trans {α : Type} {o₁ o₂ o₃ : Option α} {p : Prop}
    (h₁ : o₂ = o₁ ∨ p ∧ o₁ = none) (h₂ : o₃ = o₂ ∨ p ∧ o₂ = none) : o₃ = o₁ ∨ p ∧ o₁ = none := by
  rcases h₁ with e | e
  · rcases h₂ with e' | ⟨hp, e'⟩
    · exact .inl (e'.trans e)
    · exact .inr ⟨hp, e ▸ e'⟩
  · exact .inr e

theorem AddsOnly.trans {h : String} {reg₁ reg₂ reg₃ : Registry σ ω}
    (h₁ : AddsOnly h reg₁ reg₂) (h₂ : AddsOnly h reg₂ reg₃) : AddsOnly h reg₁ reg₃ :=
  ⟨fun h' => addsOnly_lookup_trans (h₁.es h') (h₂.es h'),
   fun h' => addsOnly_lookup_trans (h₁.gd h') (h₂.gd h')⟩

theorem AddsOnly.slot_ne {h h' : String} {reg reg' : Registry σ ω} (ha : AddsOnly h reg reg')
    (hne : h' ≠ h) : reg'.slot h' = reg.slot h' := by
  have e₁ := (ha.es h').resolve_right fun ⟨he, _⟩ => hne he
  have e₂ := (ha.gd h').resolve_right fun ⟨he, _⟩ => hne he
  simp [slot, e₁, e₂]

theorem AddsOnly.mem_esMap {h h' : String} {reg reg' : Registry σ ω} (ha : AddsOnly h reg reg')
    (hm : h' ∈ reg.esMap) : h' ∈ reg'.esMap := by
  rcases ha.es h' with e | ⟨-, e⟩
  · rwa [← AList.lookup_isSome, e, AList.lookup_isSome]
  · exact absurd e (AList.lookup_eq_none.not.mpr (not_not.mpr hm))

theorem AddsOnly.mem_gdMap {h h' : String} {reg reg' : Registry σ ω} (ha : AddsOnly h reg reg')
    (hm : h' ∈ reg.gdMap) : h' ∈ reg'.gdMap := by
  rcases ha.gd h' with e | ⟨-, e⟩
  · rwa [← AList.lookup_isSome, e, AList.lookup_isSome]
  · exact absurd e (AList.lookup_eq_none.not.mpr (not_not.mpr hm))

theorem slot_eq_iff {h : String} {reg reg' : Registry σ ω} :
    reg'.slot h = reg.slot h ↔
      reg'.esMap.lookup h = reg.esMap.lookup h ∧ reg'.gdMap.lookup h = reg.gdMap.lookup h :=
  Prod.mk.inj_iff

/-- Two registries with the same entries for `h` agree on whether `h` has a
    store and an optimizer. -/
theorem mem_iff_of_slot_eq {h : String} {reg reg' : Registry σ ω} (hs : reg'.slot h = reg.slot h) :
    (h ∈ reg'.esMap ↔ h ∈ reg.esMap) ∧ (h ∈ reg'.gdMap ↔ h ∈ reg.gdMap) := by
  simp only [slot, Prod.mk.injEq] at hs
  simp only [← AList.lookup_isSome, hs, and_self]

theorem AddsOnly.esMap_of_lookup {h h' : String} {reg reg' : Registry σ ω} {kb : σ}
    (ha : AddsOnly h reg reg') (hl : reg.esMap.lookup h' = some kb) :
    reg'.esMap.lookup h' = some kb := by
  rcases ha.es h' with e | ⟨-, e⟩ <;> simp_all

theorem AddsOnly.gdMap_of_lookup {h h' : String} {reg reg' : Registry σ ω} {opt : ω}
    (ha : AddsOnly h reg reg') (hl : reg.gdMap.lookup h' = some opt) :
    reg'.gdMap.lookup h' = some opt := by
  rcases ha.gd h' with e | ⟨-, e⟩ <;> simp_all

end Registry

namespace Status

/-- Line 194. -/
def knowledgeBankFailed : Status := ⟨.internal, "Creating KnowledgeBank failed."⟩

/-- Lines 204–205. -/
def optimizerFailed : Status := ⟨.internal, "Creating GradientDescentOptimizer failed."⟩

end Status

section StartSession

variable {K G σ ω V : Type} (b : Backend K G σ ω V)

/-- Lines 188–197: a new knowledge bank for `h`, unless `es_map_` has one. -/
def createKnowledgeBank (reg : Registry σ ω) (h : String)
    (config : DynamicEmbeddingConfig K G) : Status × Registry σ ω :=
  if h ∈ reg.esMap then (Status.OK, reg)
  else match b.make config.knowledgeBankConfig config.embeddingDimension with
    | none => (Status.knowledgeBankFailed, reg)
    | some kb => (Status.OK, { reg with esMap := reg.esMap.insert h kb })

/-- Lines 198–208: a new optimizer for `h`, when the configuration has a
    `gradient_descent_config` and `gd_map_` has none for `h`. -/
def createOptimizer (reg : Registry σ ω) (h : String)
    (config : DynamicEmbeddingConfig K G) : Status × Registry σ ω :=
  match config.gradientDescentConfig with
  | none => (Status.OK, reg)
  | some gd =>
    if h ∈ reg.gdMap then (Status.OK, reg)
    else match b.create config.embeddingDimension gd with
      | none => (Status.optimizerFailed, reg)
      | some opt => (Status.OK, { reg with gdMap := reg.gdMap.insert h opt })

/-- `StartSessionIfNecessary` (lines 183–210), one section under the exclusive
    lock. The parse result is not checked, as in the source. -/
def startSessionIfNecessary (reg : Registry σ ω) (h : String) : Status × Registry σ ω :=
  let config := b.sessionConfig h
  let created := createKnowledgeBank b reg h config
  if created.1.code = .ok then createOptimizer b created.2 h config else created

/-- Everything `createKnowledgeBank` can do. -/
theorem createKnowledgeBank_cases (reg : Registry σ ω) (h : String)
    (c : DynamicEmbeddingConfig K G) :
    (h ∈ reg.esMap ∧ createKnowledgeBank b reg h c = (Status.OK, reg)) ∨
    (h ∉ reg.esMap ∧ b.make c.knowledgeBankConfig c.embeddingDimension = none ∧
      createKnowledgeBank b reg h c = (Status.knowledgeBankFailed, reg)) ∨
    (∃ kb, h ∉ reg.esMap ∧ b.make c.knowledgeBankConfig c.embeddingDimension = some kb ∧
      createKnowledgeBank b reg h c = (Status.OK, { reg with esMap := reg.esMap.insert h kb })) := by
  unfold createKnowledgeBank
  by_cases hm : h ∈ reg.esMap
  · simp [hm]
  · cases hk : b.make c.knowledgeBankConfig c.embeddingDimension <;> simp [hm]

/-- Everything `createOptimizer` can do. -/
theorem createOptimizer_cases (reg : Registry σ ω) (h : String)
    (c : DynamicEmbeddingConfig K G) :
    ((c.gradientDescentConfig = none ∨ h ∈ reg.gdMap) ∧
      createOptimizer b reg h c = (Status.OK, reg)) ∨
    (∃ gd, c.gradientDescentConfig = some gd ∧ h ∉ reg.gdMap ∧
      b.create c.embeddingDimension gd = none ∧
      createOptimizer b reg h c = (Status.optimizerFailed, reg)) ∨
    (∃ gd opt, c.gradientDescentConfig = some gd ∧ h ∉ reg.gdMap ∧
      b.create c.embeddingDimension gd = some opt ∧
      createOptimizer b reg h c = (Status.OK, { reg with gdMap := reg.gdMap.insert h opt })) := by
  unfold createOptimizer
  rcases hg : c.gradientDescentConfig with _ | gd
  · simp
  · by_cases hm : h ∈ reg.gdMap
    · simp [hm]
    · cases hc : b.create c.embeddingDimension gd <;> simp [hm, hc]

theorem addsOnly_createKnowledgeBank (reg : Registry σ ω) (h : String)
    (c : DynamicEmbeddingConfig K G) : reg.AddsOnly h (createKnowledgeBank b reg h c).2 := by
  rcases createKnowledgeBank_cases b reg h c with ⟨-, e⟩ | ⟨-, -, e⟩ | ⟨kb, hm, -, e⟩ <;>
    rw [e]
  · exact .refl h reg
  · exact .refl h reg
  · refine ⟨fun h' => ?_, fun _ => .inl rfl⟩
    by_cases e' : h' = h
    · subst e'; simp [AList.lookup_eq_none.mpr hm]
    · simp [e']

theorem addsOnly_createOptimizer (reg : Registry σ ω) (h : String)
    (c : DynamicEmbeddingConfig K G) : reg.AddsOnly h (createOptimizer b reg h c).2 := by
  rcases createOptimizer_cases b reg h c with ⟨-, e⟩ | ⟨-, -, -, -, e⟩ | ⟨gd, opt, -, hm, -, e⟩ <;>
    rw [e]
  · exact .refl h reg
  · exact .refl h reg
  · refine ⟨fun _ => .inl rfl, fun h' => ?_⟩
    by_cases e' : h' = h
    · subst e'; simp [AList.lookup_eq_none.mpr hm]
    · simp [e']

theorem addsOnly_startSessionIfNecessary (reg : Registry σ ω) (h : String) :
    reg.AddsOnly h (startSessionIfNecessary b reg h).2 := by
  have h₁ := addsOnly_createKnowledgeBank b reg h (b.sessionConfig h)
  simp only [startSessionIfNecessary]
  split_ifs
  · exact h₁.trans (addsOnly_createOptimizer b _ h _)
  · exact h₁

@[simp] theorem createKnowledgeBank_gdMap (reg : Registry σ ω) (h : String)
    (c : DynamicEmbeddingConfig K G) : (createKnowledgeBank b reg h c).2.gdMap = reg.gdMap := by
  rcases createKnowledgeBank_cases b reg h c with ⟨-, e⟩ | ⟨-, -, e⟩ | ⟨kb, -, -, e⟩ <;> simp [e]

@[simp] theorem createOptimizer_esMap (reg : Registry σ ω) (h : String)
    (c : DynamicEmbeddingConfig K G) : (createOptimizer b reg h c).2.esMap = reg.esMap := by
  rcases createOptimizer_cases b reg h c with ⟨-, e⟩ | ⟨-, -, -, -, e⟩ | ⟨gd, opt, -, -, -, e⟩ <;>
    simp [e]

variable {b}

/-- Creating the store succeeds exactly when `h` has one afterwards. -/
theorem createKnowledgeBank_ok_iff {reg : Registry σ ω} {h : String}
    {c : DynamicEmbeddingConfig K G} :
    (createKnowledgeBank b reg h c).1.code = .ok ↔ h ∈ (createKnowledgeBank b reg h c).2.esMap := by
  rcases createKnowledgeBank_cases b reg h c with ⟨hm, e⟩ | ⟨hm, -, e⟩ | ⟨kb, -, -, e⟩ <;>
    simp_all [Status.knowledgeBankFailed]

theorem mem_createKnowledgeBank_of_ok {reg : Registry σ ω} {h : String}
    {c : DynamicEmbeddingConfig K G} (hok : (createKnowledgeBank b reg h c).1.code = .ok) :
    h ∈ (createKnowledgeBank b reg h c).2.esMap :=
  createKnowledgeBank_ok_iff.mp hok

theorem mem_createOptimizer_of_ok {reg : Registry σ ω} {h : String}
    {c : DynamicEmbeddingConfig K G} {gd : G} (hgd : c.gradientDescentConfig = some gd)
    (hok : (createOptimizer b reg h c).1.code = .ok) :
    h ∈ (createOptimizer b reg h c).2.gdMap := by
  rcases createOptimizer_cases b reg h c with ⟨hm, e⟩ | ⟨-, -, -, -, e⟩ | ⟨gd, opt, -, -, -, e⟩ <;>
    simp_all [Status.optimizerFailed]

/-- A call that succeeds leaves `h` with a store, and with an optimizer when
    its configuration has a `gradient_descent_config`. -/
theorem mem_of_startSessionIfNecessary_ok {reg : Registry σ ω} {h : String}
    (hok : (startSessionIfNecessary b reg h).1.code = .ok) :
    h ∈ (startSessionIfNecessary b reg h).2.esMap ∧
      ∀ gd, (b.sessionConfig h).gradientDescentConfig = some gd →
        h ∈ (startSessionIfNecessary b reg h).2.gdMap := by
  simp only [startSessionIfNecessary] at hok ⊢
  split_ifs at hok ⊢ with hkb
  · exact ⟨by simpa using mem_createKnowledgeBank_of_ok hkb,
      fun gd hgd => mem_createOptimizer_of_ok hgd hok⟩
  · exact absurd hok hkb

/-- The three statuses a call can return. -/
theorem startSessionIfNecessary_status (b : Backend K G σ ω V) (reg : Registry σ ω) (h : String) :
    (startSessionIfNecessary b reg h).1 = Status.OK ∨
    (startSessionIfNecessary b reg h).1 = Status.knowledgeBankFailed ∨
    (startSessionIfNecessary b reg h).1 = Status.optimizerFailed := by
  simp only [startSessionIfNecessary]
  split_ifs
  · rcases createOptimizer_cases b (createKnowledgeBank b reg h
      (b.sessionConfig h)).2 h (b.sessionConfig h) with
      ⟨-, e⟩ | ⟨-, -, -, -, e⟩ | ⟨gd, opt, -, -, -, e⟩ <;> simp [e]
  · rcases createKnowledgeBank_cases b reg h (b.sessionConfig h) with
      ⟨-, e⟩ | ⟨-, -, e⟩ | ⟨kb, -, -, e⟩ <;> simp [e]

/-- `es_map_` afterwards is the one `createKnowledgeBank` left. -/
theorem startSessionIfNecessary_esMap (b : Backend K G σ ω V) (reg : Registry σ ω)
    (h : String) : (startSessionIfNecessary b reg h).2.esMap =
      (createKnowledgeBank b reg h (b.sessionConfig h)).2.esMap := by
  simp only [startSessionIfNecessary]
  split_ifs <;> simp

/-- A start adds at most one session, and removes none. -/
theorem knowledgeBankSize_startSessionIfNecessary (b : Backend K G σ ω V) (reg : Registry σ ω)
    (h : String) :
    reg.knowledgeBankSize ≤ (startSessionIfNecessary b reg h).2.knowledgeBankSize ∧
    (startSessionIfNecessary b reg h).2.knowledgeBankSize ≤ reg.knowledgeBankSize + 1 := by
  simp only [Registry.knowledgeBankSize, startSessionIfNecessary_esMap]
  rcases createKnowledgeBank_cases b reg h (b.sessionConfig h) with
    ⟨-, e⟩ | ⟨-, -, e⟩ | ⟨kb, hm, -, e⟩ <;> rw [e] <;> dsimp only
  · omega
  · omega
  · -- A new handle, inserted in front of the old keys.
    rw [AList.keys_insert, List.erase_of_not_mem (fun hk => hm (AList.mem_keys.mpr hk)),
      List.length_cons]
    omega

/-- The store of `h` afterwards: the one it had, or else what the factory made. -/
theorem lookup_esMap_startSessionIfNecessary (b : Backend K G σ ω V) (reg : Registry σ ω)
    (h : String) : (startSessionIfNecessary b reg h).2.esMap.lookup h =
      (reg.esMap.lookup h).or
        (b.make (b.sessionConfig h).knowledgeBankConfig (b.sessionConfig h).embeddingDimension) := by
  rw [startSessionIfNecessary_esMap]
  rcases createKnowledgeBank_cases b reg h (b.sessionConfig h) with
    ⟨hm, e⟩ | ⟨hm, hk, e⟩ | ⟨kb, hm, hk, e⟩ <;> rw [e]
  · obtain ⟨kb, hkb⟩ := Option.isSome_iff_exists.mp (AList.lookup_isSome.mpr hm)
    simp [hkb]
  · simp [AList.lookup_eq_none.mpr hm, hk]
  · simp [AList.lookup_eq_none.mpr hm, hk]

/-- The optimizer of `h` afterwards: the one it had, or else, once `h` has a
    store, what the factory made from the configuration's
    `gradient_descent_config`. -/
theorem lookup_gdMap_startSessionIfNecessary (b : Backend K G σ ω V) (reg : Registry σ ω)
    (h : String) : (startSessionIfNecessary b reg h).2.gdMap.lookup h =
      (reg.gdMap.lookup h).or
        (if h ∈ (startSessionIfNecessary b reg h).2.esMap then
          (b.sessionConfig h).gradientDescentConfig.bind
            (b.create (b.sessionConfig h).embeddingDimension)
        else none) := by
  rw [startSessionIfNecessary_esMap]
  simp only [startSessionIfNecessary]
  split_ifs with hok hm hm
  · rcases createOptimizer_cases b (createKnowledgeBank b reg h (b.sessionConfig h)).2 h
      (b.sessionConfig h) with ⟨hg | hg, e⟩ | ⟨gd, hg, hg', hc, e⟩ | ⟨gd, opt, hg, hg', hc, e⟩ <;>
      rw [e] <;> simp only [createKnowledgeBank_gdMap] at *
    · simp [hg, Option.or_none]
    · obtain ⟨opt, hopt⟩ := Option.isSome_iff_exists.mp (AList.lookup_isSome.mpr hg)
      simp [hopt]
    · simp [AList.lookup_eq_none.mpr hg', hg, hc]
    · simp [AList.lookup_eq_none.mpr hg', hg, hc]
  · exact absurd (mem_createKnowledgeBank_of_ok hok) hm
  · exact absurd (createKnowledgeBank_ok_iff.mpr hm) hok
  · simp [Option.or_none]

theorem startSessionIfNecessary_of_ok {reg : Registry σ ω} {h : String}
    (hok : (createKnowledgeBank b reg h (b.sessionConfig h)).1.code = .ok) :
    startSessionIfNecessary b reg h =
      createOptimizer b (createKnowledgeBank b reg h (b.sessionConfig h)).2 h (b.sessionConfig h) :=
  if_pos hok

theorem startSessionIfNecessary_of_not_ok {reg : Registry σ ω} {h : String}
    (hok : ¬(createKnowledgeBank b reg h (b.sessionConfig h)).1.code = .ok) :
    startSessionIfNecessary b reg h = createKnowledgeBank b reg h (b.sessionConfig h) :=
  if_neg hok

/-- The status a start of `h` reports when it leaves `reg`: no store means the
    store factory failed, and a requested optimizer still missing means the
    optimizer factory failed. -/
def startStatus (b : Backend K G σ ω V) (h : String) (reg : Registry σ ω) : Status :=
  if h ∉ reg.esMap then Status.knowledgeBankFailed
  else if (b.sessionConfig h).gradientDescentConfig.isSome ∧ h ∉ reg.gdMap then
    Status.optimizerFailed
  else Status.OK

/-- The status is read off what `h` has afterwards. -/
theorem startSessionIfNecessary_fst (b : Backend K G σ ω V) (reg : Registry σ ω) (h : String) :
    (startSessionIfNecessary b reg h).1 = startStatus b h (startSessionIfNecessary b reg h).2 := by
  unfold startStatus
  by_cases hok : (createKnowledgeBank b reg h (b.sessionConfig h)).1.code = .ok
  · have hm := mem_createKnowledgeBank_of_ok hok
    rw [startSessionIfNecessary_of_ok hok]
    rcases createOptimizer_cases b (createKnowledgeBank b reg h (b.sessionConfig h)).2 h
      (b.sessionConfig h) with ⟨hg | hg, e⟩ | ⟨gd, hg, hg', hc, e⟩ | ⟨gd, opt, hg, hg', hc, e⟩ <;>
      rw [e] <;> simp only [createKnowledgeBank_gdMap] at * <;> simp_all
  · rw [startSessionIfNecessary_of_not_ok hok]
    rcases createKnowledgeBank_cases b reg h (b.sessionConfig h) with
      ⟨hm, e⟩ | ⟨hm, -, e⟩ | ⟨kb, hm, -, e⟩ <;> simp_all

theorem startStatus_congr (b : Backend K G σ ω V) {h : String} {reg reg' : Registry σ ω}
    (hes : h ∈ reg'.esMap ↔ h ∈ reg.esMap) (hgd : h ∈ reg'.gdMap ↔ h ∈ reg.gdMap) :
    startStatus b h reg' = startStatus b h reg := by
  simp only [startStatus, hes, hgd]

/-- Whether `h` has a store afterwards. -/
theorem mem_esMap_startSessionIfNecessary (b : Backend K G σ ω V) (reg : Registry σ ω)
    (h : String) : h ∈ (startSessionIfNecessary b reg h).2.esMap ↔
      h ∈ reg.esMap ∨
        (b.make (b.sessionConfig h).knowledgeBankConfig (b.sessionConfig h).embeddingDimension).isSome := by
  rw [← AList.lookup_isSome, lookup_esMap_startSessionIfNecessary, Option.isSome_or,
    Bool.or_eq_true, AList.lookup_isSome]

/-- Whether `h` has an optimizer afterwards. -/
theorem mem_gdMap_startSessionIfNecessary (b : Backend K G σ ω V) (reg : Registry σ ω)
    (h : String) : h ∈ (startSessionIfNecessary b reg h).2.gdMap ↔
      h ∈ reg.gdMap ∨ h ∈ (startSessionIfNecessary b reg h).2.esMap ∧
        ∃ gd, (b.sessionConfig h).gradientDescentConfig = some gd ∧
          (b.create (b.sessionConfig h).embeddingDimension gd).isSome := by
  rw [← AList.lookup_isSome, lookup_gdMap_startSessionIfNecessary, Option.isSome_or,
    Bool.or_eq_true, AList.lookup_isSome]
  split_ifs with hm
  · cases (b.sessionConfig h).gradientDescentConfig <;> simp [hm]
  · simp [hm]

end StartSession

end Carls
