import Mathlib
import KvEngine.Collections.ChangeSpec
import KvEngine.Lib.AssocList

/-!
# The events of an update

What `update(manifest)` queues into the vbucket when it succeeds and changes
anything: one event for each change of `processManifest`, at consecutive
seqnos, in the order drops, scope creates, creates, modifications, flushes,
scope drops; every event but the last carries the old uid and the last the
new one; and a client following the events never sees a collection created in
a scope it does not have, nor a scope dropped while it still has a collection
of it.

- `Change.Queued c e`: `e` is the event of change `c`.
- `Shape`: what the events tell a client, the scopes and the scope of each
  collection; `Shape.apply` follows one event, and `Shape.ofManifest` is what
  a manifest shows.
- `ActiveStep.stepEvent`: a change queues its event at the next seqno and
  moves the manifest's shape as the event says.
- `runChanges_events`: the same for a run of changes, with an invariant that
  may depend on the changes still to run.
- `update_events`: the result for `update`.
- `update_drops_flush_uid`: an update does not converge on a manifest that
  flushed one of the collections it creates; neither does warmup.
-/

namespace KvEngine.Collections

/-- `e` is the event of change `c`: the same kind, for the same collection or
scope. -/
def Change.Queued : Change → SystemEvent → Prop
  | .drop cid, .endCollection d => d.collectionId = cid
  | .createScope c, .createScope d => d.scopeId = c.sid ∧ d.name = c.name
  | .begin c, .beginCollection d => d.collectionId = c.cid
  | .modify c, .modifyCollection d => d.collectionId = c.cid
  | .dropScope sid, .dropScope d => d.scopeId = sid
  | _, _ => False

/-- What the system events tell a client of the collections: which scopes
exist, and the scope of each collection that exists. -/
structure Shape where
  scopes : ScopeID → Bool
  collections : CollectionID → Option ScopeID

namespace Shape

/-- The shape of a vbucket manifest. -/
def ofManifest (m : VBManifest) : Shape :=
  ⟨fun sid => (m.scopes.lookup sid).isSome, fun cid => (m.map.lookup cid).map ManifestEntry.sid⟩

/-- The shape after one event: a Begin creates the collection unless it
exists (then it is a flush). -/
def apply (sh : Shape) : SystemEvent → Shape
  | .beginCollection d =>
    if (sh.collections d.collectionId).isSome then sh
    else { sh with collections := Function.update sh.collections d.collectionId (some d.scopeId) }
  | .modifyCollection _ => sh
  | .endCollection d => { sh with collections := Function.update sh.collections d.collectionId none }
  | .createScope d => { sh with scopes := Function.update sh.scopes d.scopeId true }
  | .dropScope d => { sh with scopes := Function.update sh.scopes d.scopeId false }

/-- The shape after a list of events. -/
def replay (sh : Shape) (es : List SystemEvent) : Shape := es.foldl apply sh

@[simp] theorem replay_nil (sh : Shape) : sh.replay [] = sh := rfl

@[simp] theorem replay_cons (sh : Shape) (e : SystemEvent) (es : List SystemEvent) :
    sh.replay (e :: es) = (sh.apply e).replay es := rfl

/-! ### The shape of each change -/

section OfManifest

variable (m : VBManifest) (u : Nat)

theorem ofManifest_eraseEntry (cid : CollectionID) :
    ofManifest ({ m with manifestUid := u }.eraseEntry cid) =
      { ofManifest m with collections := Function.update (ofManifest m).collections cid none } := by
  simp only [ofManifest, VBManifest.eraseEntry, mk.injEq, true_and]
  funext q
  rw [AssocList.lookup_filter_key (fun k => k != cid)]
  by_cases hq : q = cid <;> simp [hq, Function.update]

theorem ofManifest_setEntry {cid : CollectionID} {e : ManifestEntry} (h : m.map.lookup cid = some e)
    {e' : ManifestEntry} (he : e'.sid = e.sid) :
    ofManifest ({ m with manifestUid := u }.setEntry cid e') = ofManifest m := by
  simp only [ofManifest, VBManifest.setEntry, mk.injEq, true_and]
  funext q
  rw [AssocList.lookup_map_replace]
  by_cases hq : q = cid <;> simp [hq, h, he]

theorem ofManifest_append {cid : CollectionID} (h : m.map.lookup cid = none) (e : ManifestEntry) :
    ofManifest { m with manifestUid := u, map := m.map ++ [(cid, e)] } =
      { ofManifest m with collections := Function.update (ofManifest m).collections cid (some e.sid) } := by
  simp only [ofManifest, mk.injEq, true_and]
  funext q
  rw [AssocList.lookup_append_singleton _ _ _ _ (AssocList.not_mem_of_lookup_eq_none h)]
  by_cases hq : q = cid <;> simp [hq, Function.update]

theorem ofManifest_appendScope {sid : ScopeID} (h : m.scopes.lookup sid = none) (name : String) :
    ofManifest { m with manifestUid := u, scopes := m.scopes ++ [(sid, name)] } =
      { ofManifest m with scopes := Function.update (ofManifest m).scopes sid true } := by
  simp only [ofManifest, mk.injEq, and_true]
  funext q
  rw [AssocList.lookup_append_singleton _ _ _ _ (AssocList.not_mem_of_lookup_eq_none h)]
  by_cases hq : q = sid <;> simp [hq, Function.update]

theorem ofManifest_eraseScope (sid : ScopeID) :
    ofManifest { m.eraseScope sid with manifestUid := u } =
      { ofManifest m with scopes := Function.update (ofManifest m).scopes sid false } := by
  simp only [ofManifest, VBManifest.eraseScope, mk.injEq, and_true]
  funext q
  rw [AssocList.lookup_filter_key (fun k => k != sid)]
  by_cases hq : q = sid <;> simp [hq, Function.update]

end OfManifest

end Shape

/-! ### One change -/

/-- What a change that succeeded did, as its event `e` shows: it queued `e`
at the next seqno, `e` carries the uid the manifest now has, and the
manifest's shape moved as `e` says; a Begin that creates a collection names
a scope the manifest has. -/
structure StepEvent (u : Nat) (s : VBucket) (c : Change) (s' : VBucket) (e : SystemEvent) : Prop where
  eq_push : s' = s.push s'.manifest (s.highSeqno + 1) e
  queued : c.Queued e
  uid_eq : e.uid = updatedUid false s.manifest.manifestUid u
  manifestUid_eq : s'.manifest.manifestUid = e.uid
  shape_eq : Shape.ofManifest s'.manifest = (Shape.ofManifest s.manifest).apply e
  create_scope : ∀ d, e = .beginCollection d → (Shape.ofManifest s.manifest).collections d.collectionId = none →
    (Shape.ofManifest s.manifest).scopes d.scopeId = true

theorem ActiveStep.stepEvent {u : Nat} {s s' : VBucket} {c : Change} (h : ActiveStep u s c s') :
    ∃ e, StepEvent u s c s' e := by
  cases h with
  | drop hl =>
    refine ⟨_, ⟨rfl, rfl, rfl, rfl, ?_, fun d hd => by cases hd⟩⟩
    simp only [VBucket.push]
    rw [Shape.ofManifest_eraseEntry]
    rfl
  | createScope hl =>
    refine ⟨_, ⟨rfl, ⟨rfl, rfl⟩, rfl, rfl, ?_, fun d hd => by cases hd⟩⟩
    simp only [VBucket.push]
    rw [Shape.ofManifest_appendScope _ _ hl]
    rfl
  | flush hl hs =>
    rename_i c entry
    -- the collection exists, so its Begin is a flush and leaves the shape as it is
    have hsome : ((Shape.ofManifest s.manifest).collections c.cid).isSome := by simp [Shape.ofManifest, hl]
    refine ⟨_, ⟨rfl, rfl, rfl, rfl, ?_, fun d hd hnone => ?_⟩⟩
    · simp only [VBucket.push]
      rw [Shape.ofManifest_setEntry _ _ hl]
      · simp only [Shape.apply, collectionData, hsome, if_true]
      · rfl
    · cases hd
      simp [collectionData, Shape.ofManifest, hl] at hnone
  | create hl hsid ht =>
    rename_i c ttl
    have hnone : (Shape.ofManifest s.manifest).collections c.cid = none := by simp [Shape.ofManifest, hl]
    refine ⟨_, ⟨rfl, rfl, rfl, rfl, ?_, fun d hd _ => ?_⟩⟩
    · simp only [VBucket.push]
      rw [Shape.ofManifest_append _ _ hl]
      simp only [Shape.apply, collectionData, hnone, Option.isSome_none, Bool.false_eq_true, if_false]
    · cases hd
      simpa [collectionData, Shape.ofManifest] using hsid
  | modify hl ht =>
    refine ⟨_, ⟨rfl, rfl, rfl, rfl, ?_, fun d hd => by cases hd⟩⟩
    simp only [VBucket.push]
    rw [Shape.ofManifest_setEntry _ _ hl]
    · rfl
    · rfl
  | dropScope hl =>
    refine ⟨_, ⟨rfl, rfl, rfl, rfl, ?_, fun d hd => by cases hd⟩⟩
    simp only [VBucket.push]
    rw [Shape.ofManifest_eraseScope]
    rfl

/-! ### A run of changes -/

/-- The first change of a run that succeeded, under the uid it read, and the
rest of the run. -/
theorem runChanges_cons_eq_ok {n : Nat} {c : Change} {cs : List Change} {s s'' : VBucket}
    (h : runChanges (pure n) (c :: cs) s = .ok () s'') :
    ∃ s', c.run (if cs.isEmpty then n else s.manifest.manifestUid) s = .ok () s' ∧
      runChanges (pure n) cs s' = .ok () s'' := by
  simp only [runChanges] at h
  cases hc : cs.isEmpty <;> simp only [hc, if_true, Bool.false_eq_true, if_false, pure_bind, currentUid_bind] at h ⊢ <;>
  · obtain ⟨⟨⟩, s', h1, h2⟩ := EStateM.bind_eq_ok.mp h
    exact ⟨s', h1, h2⟩

/-- What a run of changes that succeeded queued, with an invariant `P` of the
changes still to run and the vbucket, at the point of each event. -/
structure RunEvents (P : List Change → VBucket → Prop) (n : Nat) (s : VBucket) (cs : List Change)
    (s' : VBucket) (evs : List QueuedEvent) : Prop where
  queue_eq : s'.queue = s.queue ++ evs
  seqnos : evs.map QueuedEvent.seqno = List.range' (s.highSeqno + 1) cs.length
  queued : List.Forall₂ Change.Queued cs (evs.map QueuedEvent.event)
  uid_dropLast : ∀ e ∈ evs.dropLast, e.event.uid = s.manifest.manifestUid
  uid_last : ∀ e, evs.getLast? = some e → e.event.uid = updatedUid false s.manifest.manifestUid n
  shape_eq : Shape.ofManifest s'.manifest = (Shape.ofManifest s.manifest).replay (evs.map QueuedEvent.event)
  at_event : ∀ pre e post, evs = pre ++ e :: post → ∃ t c rem, cs.drop pre.length = c :: rem ∧ c.Queued e.event ∧
    P (c :: rem) t ∧ Shape.ofManifest t.manifest = (Shape.ofManifest s.manifest).replay (pre.map QueuedEvent.event) ∧
    ∀ d, e.event = .beginCollection d → (Shape.ofManifest t.manifest).collections d.collectionId = none →
      (Shape.ofManifest t.manifest).scopes d.scopeId = true

section Run

variable (P : List Change → VBucket → Prop) (hP : ∀ u c rem t t', P (c :: rem) t → ActiveStep u t c t' → P rem t')
include hP

/-- The run lemma: by induction on the changes, each step queueing its event
(`ActiveStep.stepEvent`) and keeping `P`. -/
theorem runChanges_events (n : Nat) :
    ∀ (cs : List Change) (s s' : VBucket), P cs s → runChanges (pure n) cs s = .ok () s' →
      ∃ evs, RunEvents P n s cs s' evs
  | [], s, s', _, h => by
    cases h
    refine ⟨[], ⟨by simp, rfl, .nil, by simp, by simp, rfl, ?_⟩⟩
    intro pre e post he
    exact absurd he.symm (by simp)
  | c :: cs, s, s'', hs, h => by
    obtain ⟨s', hrun, hrest⟩ := runChanges_cons_eq_ok h
    have hstep := Change.run_eq_ok hrun
    obtain ⟨e, he⟩ := hstep.stepEvent
    obtain ⟨evs, hevs⟩ := runChanges_events n cs s' s'' (hP _ _ _ _ _ hs hstep) hrest
    have hlen : evs.length = cs.length := by simpa using hevs.queued.length_eq.symm
    -- the rest of the run starts one seqno on, under the uid this change left
    have hpush := he.eq_push
    have hseq : s'.highSeqno = s.highSeqno + 1 := by rw [hpush]; rfl
    have hq : s'.queue = s.queue ++ [⟨s.highSeqno + 1, e⟩] := by rw [hpush]; rfl
    refine ⟨⟨s.highSeqno + 1, e⟩ :: evs, ⟨?_, ?_, .cons he.queued hevs.queued, ?_, ?_, ?_, ?_⟩⟩
    · simp [hevs.queue_eq, hq]
    · simp [List.range'_succ, hevs.seqnos, hseq]
    · intro x hx
      cases cs with
      | nil =>
        rw [List.eq_nil_of_length_eq_zero hlen] at hx
        simp at hx
      | cons c' cs' =>
        have hne : evs ≠ [] := by rintro rfl; simp at hlen
        have heu : e.uid = s.manifest.manifestUid := by simpa using he.uid_eq
        rw [List.dropLast_cons_of_ne_nil hne] at hx
        rcases List.mem_cons.mp hx with rfl | hx
        · exact heu
        · rw [hevs.uid_dropLast x hx, he.manifestUid_eq, heu]
    · intro x hx
      cases cs with
      | nil =>
        rw [List.eq_nil_of_length_eq_zero hlen] at hx
        simp only [List.getLast?_singleton, Option.some.injEq] at hx
        subst hx
        simpa using he.uid_eq
      | cons c' cs' =>
        have hne : evs ≠ [] := by rintro rfl; simp at hlen
        have heu : e.uid = s.manifest.manifestUid := by simpa using he.uid_eq
        rw [List.getLast?_cons, List.getLast?_eq_some_getLast hne, Option.getD_some] at hx
        rw [hevs.uid_last x (by rw [List.getLast?_eq_some_getLast hne, hx]), he.manifestUid_eq, heu]
    · simp [Shape.replay_cons, ← he.shape_eq, hevs.shape_eq]
    · intro pre x post hx
      cases pre with
      | nil =>
        rw [List.nil_append, List.cons.injEq] at hx
        obtain ⟨rfl, rfl⟩ := hx
        exact ⟨s, c, cs, rfl, he.queued, hs, rfl, he.create_scope⟩
      | cons y pre' =>
        rw [List.cons_append, List.cons.injEq] at hx
        obtain ⟨rfl, hx⟩ := hx
        obtain ⟨t, c', rem, hdrop, hq, ht, hsh, hcr⟩ := hevs.at_event pre' x post hx
        refine ⟨t, c', rem, by simpa using hdrop, hq, ht, ?_, hcr⟩
        rw [hsh, he.shape_eq]
        rfl

end Run

/-! ### `processManifest` and `update` -/

theorem Manifest.findCollection_eq_some {M : Manifest} {cid : CollectionID} {c : CollectionMetaData}
    (h : M.findCollection cid = some c) : c ∈ M.collections ∧ c.cid = cid :=
  ⟨List.mem_of_find?_eq_some h, by simpa using List.find?_some h⟩

/-- In a valid manifest every collection's scope is one of the manifest's. -/
theorem Manifest.Valid.sid_mem {M : Manifest} (hM : M.Valid) {c : CollectionMetaData} (hc : c ∈ M.collections) :
    c.sid ∈ M.scopes.map Prod.fst := by
  obtain ⟨s, hs, hcs⟩ := List.mem_flatMap.mp hc
  rw [hM.sid_eq s hs c hcs]
  exact List.mem_map_of_mem hs

theorem canUpdate_le {m : VBManifest} {M : Manifest} (h : canUpdate m M = .success) : m.manifestUid ≤ M.uid := by
  unfold canUpdate at h
  split_ifs at h with h1
  exact Nat.le_of_not_lt h1

/-- A collection the manifest and the vbucket both have is in the same scope
in both. -/
theorem canUpdate_sid {m : VBManifest} {M : Manifest} (h : canUpdate m M = .success) {p : CollectionID × ManifestEntry}
    (hp : p ∈ m.map) {c : CollectionMetaData} (hc : M.findCollection p.1 = some c) : c.sid = p.2.sid := by
  unfold canUpdate at h
  split_ifs at h with h1 h2
  have := List.any_eq_false.mp (Bool.eq_false_iff.mpr h2) p hp
  simp only [hc, Bool.or_eq_true, bne_iff_ne, ne_eq, not_or, not_not] at this
  exact this.1

section Diff

/-- The first loop of `processManifest` drops exactly the collections of the
vbucket the manifest does not have. -/
theorem mem_foldl_collectionChange_drops (manifest : Manifest) : ∀ (entries : List (CollectionID × ManifestEntry))
    (acc : List CollectionID × List BeginCollection × List CollectionModification) (cid : CollectionID),
    cid ∈ (entries.foldl (collectionChange manifest) acc).1 ↔
      cid ∈ acc.1 ∨ ∃ e, (cid, e) ∈ entries ∧ manifest.findCollection cid = none
  | [], acc, cid => by simp
  | (cid', e') :: entries, (d, f, m), cid => by
    rw [List.foldl_cons, mem_foldl_collectionChange_drops manifest entries]
    cases hc : manifest.findCollection cid' with
    | none =>
      simp only [collectionChange, hc, List.mem_append, List.mem_cons, List.not_mem_nil, or_false, Prod.mk.injEq]
      constructor
      · rintro ((h | rfl) | ⟨e, he, hn⟩)
        · exact .inl h
        · exact .inr ⟨e', .inl ⟨rfl, rfl⟩, hc⟩
        · exact .inr ⟨e, .inr he, hn⟩
      · rintro (h | ⟨e, (⟨rfl, rfl⟩ | he), hn⟩)
        · exact .inl (.inl h)
        · exact .inl (.inr rfl)
        · exact .inr ⟨e, he, hn⟩
    | some c =>
      simp only [collectionChange, hc, List.mem_cons, Prod.mk.injEq]
      constructor
      · rintro (h | ⟨e, he, hn⟩)
        · exact .inl h
        · exact .inr ⟨e, .inr he, hn⟩
      · rintro (h | ⟨e, (⟨rfl, rfl⟩ | he), hn⟩)
        · exact .inl h
        · rw [hc] at hn; cases hn
        · exact .inr ⟨e, he, hn⟩

/-- A flush of the first loop is for a collection the vbucket and the
manifest both have, in the vbucket's scope. -/
theorem mem_foldl_collectionChange_flushes (manifest : Manifest) : ∀ (entries : List (CollectionID × ManifestEntry))
    (acc : List CollectionID × List BeginCollection × List CollectionModification) (b : BeginCollection),
    b ∈ (entries.foldl (collectionChange manifest) acc).2.1 →
      b ∈ acc.2.1 ∨ ∃ e c, (b.cid, e) ∈ entries ∧ manifest.findCollection b.cid = some c ∧ b.sid = e.sid
  | [], acc, b, h => .inl h
  | (cid', e') :: entries, (d, f, m), b, h => by
    rw [List.foldl_cons] at h
    rcases mem_foldl_collectionChange_flushes manifest entries _ b h with h | ⟨e, c, he, hc, hs⟩
    · cases hc' : manifest.findCollection cid' with
      | none =>
        simp only [collectionChange, hc'] at h
        exact .inl h
      | some c =>
        simp only [collectionChange, hc'] at h
        split_ifs at h
        · rcases List.mem_append.mp h with h | h
          · exact .inl h
          · rw [List.mem_singleton] at h
            subst h
            exact .inr ⟨e', c, List.mem_cons_self, hc', rfl⟩
        · exact .inl h
    · exact .inr ⟨e, c, List.mem_cons_of_mem _ he, hc, hs⟩

theorem mem_collectionsToDrop {m : VBManifest} {M : Manifest} {cid : CollectionID} :
    cid ∈ (processManifest m M).collectionsToDrop ↔ ∃ e, (cid, e) ∈ m.map ∧ M.findCollection cid = none := by
  simpa [processManifest, collectionChanges] using mem_foldl_collectionChange_drops M m.map ([], [], []) cid

theorem mem_collectionsToFlush {m : VBManifest} {M : Manifest} {b : BeginCollection}
    (h : b ∈ (processManifest m M).collectionsToFlush) :
    ∃ e c, (b.cid, e) ∈ m.map ∧ M.findCollection b.cid = some c ∧ b.sid = e.sid := by
  simpa [processManifest, collectionChanges] using mem_foldl_collectionChange_flushes M m.map ([], [], []) b h

theorem mem_collectionsToCreate {m : VBManifest} {M : Manifest} {b : BeginCollection}
    (h : b ∈ (processManifest m M).collectionsToCreate) : ∃ c ∈ M.collections, c.cid = b.cid ∧ c.sid = b.sid := by
  simp only [processManifest, List.mem_filterMap] at h
  obtain ⟨c, hc, hb⟩ := h
  split_ifs at hb
  cases hb
  exact ⟨c, hc, rfl, rfl⟩

theorem mem_scopesToDrop {m : VBManifest} {M : Manifest} {sid : ScopeID}
    (h : sid ∈ (processManifest m M).scopesToDrop) : M.findScope sid = none := by
  simp only [processManifest, List.mem_map, List.mem_filter, Option.isNone_iff_eq_none] at h
  obtain ⟨p, ⟨-, hp⟩, rfl⟩ := h
  exact hp

@[simp] theorem processManifest_newUid (m : VBManifest) (M : Manifest) : (processManifest m M).newUid = M.uid := rfl

end Diff

/-- A successful `update`: not behind, no immutable property changed, a
new uid if anything changed, and `completeUpdate` of the diff succeeded. -/
theorem update_eq_ok_success {M : Manifest} {S S' : VBucket} (h : update M S = .ok .success S') :
    canUpdate S.manifest M = .success ∧ ((processManifest S.manifest M).none = false → M.uid ≠ S.manifest.manifestUid) ∧
      completeUpdate (processManifest S.manifest M) S = .ok () S' := by
  simp only [update, EStateM.get_bind] at h
  by_cases hs : canUpdate S.manifest M = .success
  · rw [if_neg (not_not.mpr hs)] at h
    by_cases he : M.uid = S.manifest.manifestUid ∧ (!(processManifest S.manifest M).none) = true
    · rw [if_pos he] at h
      cases h
    · rw [if_neg he] at h
      obtain ⟨⟨⟩, s', h1, h2⟩ := EStateM.bind_eq_ok.mp h
      cases h2
      refine ⟨hs, fun hn hu => he ⟨hu, by simp [hn]⟩, h1⟩
  · rw [if_pos hs] at h
    exact absurd (EStateM.Result.ok.inj h).1 hs

/-! ### The scope of each collection along an update -/

section Scopes

variable (M : Manifest)

/-- The invariant of an update towards `M`, of the changes still to run and
the vbucket: every Begin still to run is for one of `M`'s collections in its
scope, and every collection of the vbucket is one of `M`'s in its scope or is
still to be dropped. -/
def InScopes (rem : List Change) (t : VBucket) : Prop :=
  (∀ b, Change.begin b ∈ rem → ∃ c ∈ M.collections, c.cid = b.cid ∧ c.sid = b.sid) ∧
    ∀ p ∈ t.manifest.map, (∃ c ∈ M.collections, c.cid = p.1 ∧ c.sid = p.2.sid) ∨ Change.drop p.1 ∈ rem

variable {M}

/-- Each change keeps `InScopes`: a drop removes its collection, a create adds
one of `M`'s, and the other changes keep every collection's scope. -/
theorem ActiveStep.inScopes {u : Nat} {c : Change} {rem : List Change} {t t' : VBucket}
    (hI : InScopes M (c :: rem) t) (h : ActiveStep u t c t') : InScopes M rem t' := by
  obtain ⟨hb, hm⟩ := hI
  refine ⟨fun b hb' => hb b (List.mem_cons_of_mem _ hb'), ?_⟩
  -- a collection the change leaves in place keeps its reason, unless the change dropped it
  have keep : ∀ p ∈ t.manifest.map, (∀ cid, c = .drop cid → p.1 ≠ cid) →
      (∃ c' ∈ M.collections, c'.cid = p.1 ∧ c'.sid = p.2.sid) ∨ Change.drop p.1 ∈ rem := by
    intro p hp hc
    rcases hm p hp with h1 | h2
    · exact .inl h1
    · rcases List.mem_cons.mp h2 with h2 | h2
      · exact absurd rfl (hc p.1 h2.symm)
      · exact .inr h2
  -- a change that gives the collection `cid` a new entry in the same scope
  have replace : ∀ {cid entry} (e' : ManifestEntry), t.manifest.map.lookup cid = some entry →
      e'.sid = entry.sid → (∀ cid', c ≠ .drop cid') →
      ∀ p ∈ t.manifest.map.map (fun q => if q.1 = cid then (cid, e') else q),
        (∃ c' ∈ M.collections, c'.cid = p.1 ∧ c'.sid = p.2.sid) ∨ Change.drop p.1 ∈ rem := by
    intro cid entry e' hl hsid hnd p hp
    obtain ⟨q, hq, rfl⟩ := List.mem_map.mp hp
    by_cases hqc : q.1 = cid
    · simp only [hqc, if_true, hsid]
      exact keep _ (AssocList.mem_of_lookup_eq_some hl) fun cid' hc => absurd hc (hnd cid')
    · simp only [hqc, if_false]
      exact keep q hq fun cid' hc => absurd hc (hnd cid')
  cases h with
  | drop hl =>
    intro p hp
    simp only [VBucket.push, VBManifest.eraseEntry, List.mem_filter, bne_iff_ne, ne_eq] at hp
    exact keep p hp.1 fun cid hc => by cases hc; exact hp.2
  | createScope hl =>
    intro p hp
    exact keep p hp fun _ hc => by cases hc
  | flush hl hs => exact replace _ hl rfl fun _ hc => by cases hc
  | create hl hsid ht =>
    intro p hp
    rcases List.mem_append.mp hp with hp | hp
    · exact keep p hp fun _ hc => by cases hc
    · rw [List.mem_singleton] at hp
      subst hp
      exact .inl (hb _ List.mem_cons_self)
  | modify hl ht => exact replace _ hl rfl fun _ hc => by cases hc
  | dropScope hl =>
    intro p hp
    exact keep p hp fun _ hc => by cases hc

/-- `InScopes` holds of the changes of a successful update before it runs:
a collection of the vbucket that `M` does not have is among the drops, and
one it has is in the same scope (`canUpdate`). -/
theorem inScopes_start {S : VBucket} (hcan : canUpdate S.manifest M = .success) :
    InScopes M (processManifest S.manifest M).toChanges S := by
  refine ⟨fun b hb => ?_, fun p hp => ?_⟩
  · simp only [ManifestChanges.toChanges, List.mem_append, List.mem_map, Change.begin.injEq, reduceCtorEq,
      and_false, exists_false, false_or, or_false, exists_eq_right] at hb
    rcases hb with hb | hb
    · exact mem_collectionsToCreate hb
    · obtain ⟨e, c, he, hc, hs⟩ := mem_collectionsToFlush hb
      obtain ⟨hcm, hcid⟩ := Manifest.findCollection_eq_some hc
      exact ⟨c, hcm, hcid, (canUpdate_sid hcan he hc).trans hs.symm⟩
  · cases hc : M.findCollection p.1 with
    | some c =>
      obtain ⟨hcm, hcid⟩ := Manifest.findCollection_eq_some hc
      exact .inl ⟨c, hcm, hcid, canUpdate_sid hcan hp hc⟩
    | none =>
      refine .inr ?_
      have hd : p.1 ∈ (processManifest S.manifest M).collectionsToDrop := mem_collectionsToDrop.mpr ⟨p.2, hp, hc⟩
      simp only [ManifestChanges.toChanges, List.mem_append, List.mem_map]
      exact .inl (.inl (.inl (.inl (.inl ⟨p.1, hd, rfl⟩))))

end Scopes

/-- In `toChanges` the scope drops come last: from a scope drop on, no
collection is dropped. -/
theorem toChanges_drop_eq_dropScope (cs : ManifestChanges) {i : Nat} {sid : ScopeID} {rem : List Change}
    (h : cs.toChanges.drop i = .dropScope sid :: rem) (cid : CollectionID) : Change.drop cid ∉ rem := by
  intro hc
  rw [ManifestChanges.toChanges, List.drop_append] at h
  cases hA : List.drop i (cs.collectionsToDrop.map Change.drop ++ cs.scopesToCreate.map Change.createScope ++
      cs.collectionsToCreate.map Change.begin ++ cs.collectionsToModify.map Change.modify ++
      cs.collectionsToFlush.map Change.begin) with
  | nil =>
    rw [hA, List.nil_append] at h
    have hB := List.mem_of_mem_drop (h ▸ List.mem_cons_of_mem _ hc)
    simp at hB
  | cons x xs =>
    rw [hA, List.cons_append, List.cons.injEq] at h
    have hx := List.mem_of_mem_drop (hA ▸ List.mem_cons_self)
    rw [h.1] at hx
    simp at hx

/-- The events of a successful update that changes anything: one for each
change, at consecutive seqnos, in the order drops, scope creates, creates,
modifications, flushes, scope drops; the old uid on all but the last, the new
and greater uid on the last; and, as the events before each one leave the
collections (the replay of their shapes, which ends at the shape of the new
manifest), no collection is created in a missing scope and no scope is
dropped while a collection is still in it. -/
theorem update_events {M : Manifest} (hM : M.Valid) {S S' : VBucket} (h : update M S = .ok .success S')
    (hchg : (processManifest S.manifest M).none = false) :
    ∃ evs : List QueuedEvent, S'.queue = S.queue ++ evs ∧
      evs.map QueuedEvent.seqno = List.range' (S.highSeqno + 1) evs.length ∧
      List.Forall₂ Change.Queued (processManifest S.manifest M).toChanges (evs.map QueuedEvent.event) ∧
      S.manifest.manifestUid < M.uid ∧
      (∀ e ∈ evs.dropLast, e.event.uid = S.manifest.manifestUid) ∧
      (evs.getLast?.map fun e => e.event.uid) = some M.uid ∧
      Shape.ofManifest S'.manifest = (Shape.ofManifest S.manifest).replay (evs.map QueuedEvent.event) ∧
      ∀ pre e post, evs = pre ++ e :: post →
        (∀ d, e.event = .beginCollection d →
          ((Shape.ofManifest S.manifest).replay (pre.map QueuedEvent.event)).collections d.collectionId = none →
          ((Shape.ofManifest S.manifest).replay (pre.map QueuedEvent.event)).scopes d.scopeId = true) ∧
        (∀ d, e.event = .dropScope d → ∀ cid,
          ((Shape.ofManifest S.manifest).replay (pre.map QueuedEvent.event)).collections cid ≠ some d.scopeId) := by
  obtain ⟨hcan, huid, hrun⟩ := update_eq_ok_success h
  rw [completeUpdate_eq_runChanges _ hchg] at hrun
  obtain ⟨evs, hevs⟩ := runChanges_events (InScopes M) (fun _ _ _ _ _ hI hs => hs.inScopes hI) _ _ S S'
    (inScopes_start hcan) hrun
  have hlt : S.manifest.manifestUid < M.uid := lt_of_le_of_ne (canUpdate_le hcan) (Ne.symm (huid hchg))
  have hlen : evs.length = (processManifest S.manifest M).toChanges.length := by
    simpa using hevs.queued.length_eq.symm
  have hne : evs ≠ [] := by
    rintro rfl
    have h0 : (processManifest S.manifest M).toChanges = [] := List.length_eq_zero_iff.mp (by simpa using hlen.symm)
    rw [ManifestChanges.none_eq_isEmpty, h0] at hchg
    exact absurd hchg (by simp)
  refine ⟨evs, hevs.queue_eq, by rw [hevs.seqnos, hlen], hevs.queued, hlt, hevs.uid_dropLast, ?_,
    hevs.shape_eq, fun pre e post hsplit => ?_⟩
  · -- the last event carries the new uid, which the monotonic store takes as it is greater
    rw [List.getLast?_eq_some_getLast hne, Option.map_some, hevs.uid_last _ (List.getLast?_eq_some_getLast hne)]
    simp [updatedUid, Monotonic.storeOrKeep, le_of_lt hlt]
  obtain ⟨t, c, rem, hdrop, hq, ⟨-, hI⟩, hsh, hcr⟩ := hevs.at_event pre e post hsplit
  rw [← hsh]
  refine ⟨hcr, fun d hd cid hcid => ?_⟩
  -- the change of a scope drop event is that scope's drop, after every collection drop
  rw [hd] at hq
  cases c with
  | dropScope sid =>
    obtain ⟨entry, hl, hes⟩ := Option.map_eq_some_iff.mp hcid
    have hsd : sid ∈ (processManifest S.manifest M).scopesToDrop := by
      have hmem := List.mem_of_mem_drop (hdrop ▸ List.mem_cons_self)
      simpa [ManifestChanges.toChanges] using hmem
    rcases hI _ (AssocList.mem_of_lookup_eq_some hl) with ⟨c', hc', -, hsid⟩ | hd'
    · have hin := hM.sid_mem hc'
      rw [hsid, hes, show d.scopeId = sid from hq] at hin
      exact AssocList.not_mem_of_lookup_eq_none (mem_scopesToDrop hsd) hin
    · rcases List.mem_cons.mp hd' with hd' | hd'
      · cases hd'
      · exact toChanges_drop_eq_dropScope _ hdrop cid hd'
  | _ => exact absurd hq (by simp [Change.Queued])

/-- A manifest one uid on from the initial vbucket's, with one more scope and
a collection in it. -/
def manifestWithNewScope : Manifest :=
  ⟨1, [(0, ⟨"_default", [⟨0, 0, "_default", none, .yes, .no, 0⟩]⟩), (8, ⟨"s", [⟨8, 9, "c", none, .yes, .no, 0⟩]⟩)]⟩

theorem manifestWithNewScope_valid : manifestWithNewScope.Valid :=
  ⟨by decide, by decide, by decide, by decide, by decide⟩

theorem update_events_new_scope :
    ∃ S', update manifestWithNewScope ⟨VBManifest.initial, 0, []⟩ = .ok .success S' ∧
      ∃ evs : List QueuedEvent, S'.queue = evs ∧ (evs.getLast?.map fun e => e.event.uid) = some 1 := by
  obtain ⟨S', h⟩ : ∃ S', update manifestWithNewScope ⟨VBManifest.initial, 0, []⟩ = .ok .success S' := ⟨_, rfl⟩
  obtain ⟨evs, hq, -, -, -, -, hl, -⟩ := update_events manifestWithNewScope_valid h rfl
  exact ⟨S', h, evs, by simpa using hq, hl⟩

/-! ### The flush uid of a created collection -/

/-- A manifest whose collection `8` was flushed at uid `2`. -/
def manifestWithFlushedCollection : Manifest :=
  ⟨2, [(0, ⟨"_default", [⟨0, 0, "_default", none, .yes, .no, 0⟩, ⟨0, 8, "c", none, .yes, .no, 2⟩]⟩)]⟩
/-- The same collection as warmup reads it back from disk. -/
def persistedFlushedCollection : PersistedManifest :=
  ⟨2, [(0, "_default")], [⟨⟨0, 0, "_default", none, .yes, .no, 0⟩, 0⟩, ⟨⟨0, 8, "c", none, .yes, .no, 2⟩, 1⟩]⟩
/-- `addNewCollectionEntry` builds every entry with flush uid `0`: a
collection created by an update, or rebuilt at warmup, from a manifest that
flushed it keeps flush uid `0`, so the next update to the same manifest finds
a flush to make and reports `EqualUidWithDifferences`. -/
theorem update_drops_flush_uid :
    manifestWithFlushedCollection.Valid ∧
    (∃ S, update manifestWithFlushedCollection ⟨VBManifest.initial, 0, []⟩ = .ok .success S ∧
      (S.manifest.map.lookup 8).map ManifestEntry.flushUid = some 0 ∧
      update manifestWithFlushedCollection S = .ok .equalUidWithDifferences S) ∧
    (∃ W, ofPersisted persistedFlushedCollection ⟨VBManifest.initial, 0, []⟩ = .ok () W ∧
      (W.manifest.map.lookup 8).map ManifestEntry.flushUid = some 0 ∧
      update manifestWithFlushedCollection W = .ok .equalUidWithDifferences W) :=
  ⟨⟨by decide, by decide, by decide, by decide, by decide⟩, ⟨_, rfl, rfl, rfl⟩, ⟨_, rfl, rfl, rfl⟩⟩

end KvEngine.Collections
