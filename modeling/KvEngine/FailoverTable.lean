import KvEngine.Json

/-!
# The failover table (`engines/ep/src/failover-table.cc`)

A vbucket's failover table is its branch of history: a list of
`(vb_uuid, by_seqno)` entries, newest first. Beside the list the table caches
the newest uuid (`latest_uuid`) and the JSON rendering of the list
(`cachedTableJSON`), and each mutator refreshes those caches by hand.

- `createEntry`, `pruneEntries`, `removeLatestEntry`, `sanitizeFailoverTable`,
  `constructFromJSON`: the mutators, with the random provider of `generateUuid`
  given as the list of values it returns.
- `Reachable capacity`: the tables built by either constructor and then changed
  by any sequence of mutator calls the callers make.
- `Inv`: the representation invariant the design keeps: the list is non-empty,
  newest first, free of the erroneous uuid `0`, and the cached JSON reads back
  as the list.

Results:
- `reachable_inv`: every reachable table of a capacity of at least one keeps
  `Inv`.
- `failoverTable_invariant`: with the caches refreshed by `createEntry`,
  `pruneEntries`, `removeLatestEntry` and the constructor, and `createEntry`
  keeping the capacity.
- `ofJSON_keeps_input_json`: the JSON constructor caches the JSON it was given,
  which is not the rendering of the table when it has other members.
-/

namespace KvEngine

/-- `failover_entry_t`. -/
structure FailoverEntry where
  vbUuid : UInt64
  bySeqno : UInt64
  deriving DecidableEq, Repr

/-- The state of a `FailoverTable`: the entries, newest first, `max_entries`,
`erroneousEntriesErased`, `latest_uuid` and `cachedTableJSON`. -/
structure FailoverTable where
  table : List FailoverEntry
  maxEntries : Nat
  erroneousEntriesErased : Nat
  latestUuid : UInt64
  cachedTableJSON : Json

namespace FailoverTable

/-! ## The model -/

/-- The object `cacheTableJSON` renders for one entry. -/
def renderEntry (e : FailoverEntry) : Json :=
  .obj [("id", .uint e.vbUuid.toNat), ("seq", .uint e.bySeqno.toNat)]

/-- The array `cacheTableJSON` renders for the entries. -/
def renderTable (table : List FailoverEntry) : Json :=
  .arr (table.map renderEntry)

/-- `cacheTableJSON`. -/
def cacheTableJSON (t : FailoverTable) : FailoverTable :=
  { t with cachedTableJSON := renderTable t.table }

/-- `generateUuid`: `provider.next() >> 16` until it is non-zero, over the
values `draws` the random provider returns; `none` when it returns no usable
value among them. -/
def generateUuid : List UInt64 → Option UInt64
  | [] => none
  | d :: ds => if d >>> 16 = 0 then generateUuid ds else some (d >>> 16)

/-- `createEntry(high_seqno)`: drop the entries of diverged branches, push a
fresh uuid at `high_seqno` on the front and cap the table at `max_entries`. -/
def createEntry (t : FailoverTable) (highSeqno : UInt64) (draws : List UInt64) :
    Option FailoverTable := do
  let uuid ← generateUuid draws
  let kept := t.table.filter fun e => !(e.bySeqno > highSeqno)
  let table := ({ vbUuid := uuid, bySeqno := highSeqno } :: kept).take t.maxEntries
  return cacheTableJSON { t with table, latestUuid := uuid }

/-- `pruneEntries(seqno)`: drop the entries above `seqno`, or replace them all
by a fresh entry at `seqno`. `seqno == 0` throws `std::invalid_argument`
("cannot prune entry zero"), which is `none` here. -/
def pruneEntries (t : FailoverTable) (seqno : UInt64) (draws : List UInt64) :
    Option FailoverTable :=
  if seqno = 0 then none
  else
    match t.table.filter fun e => !(e.bySeqno > seqno) with
    | e :: rest => some (cacheTableJSON { t with table := e :: rest, latestUuid := e.vbUuid })
    | [] => do
      let uuid ← generateUuid draws
      return cacheTableJSON { t with table := [{ vbUuid := uuid, bySeqno := seqno }],
                                     latestUuid := uuid }

/-- `removeLatestEntry`: pop the front entry and re-render the JSON. It does
not refresh `latest_uuid`. -/
def removeLatestEntry (t : FailoverTable) : FailoverTable :=
  match t.table with
  | [] => t
  | _ :: rest => cacheTableJSON { t with table := rest }

/-- The loop of `sanitizeFailoverTable`: erase entries with `vb_uuid == 0` and
entries above the previous entry kept, `prev`. -/
def sanitizeFrom : Option FailoverEntry → List FailoverEntry → List FailoverEntry
  | _, [] => []
  | prev, e :: rest =>
    if e.vbUuid = 0 then sanitizeFrom prev rest
    else
      match prev with
      | some p =>
        if e.bySeqno > p.bySeqno then sanitizeFrom prev rest
        else e :: sanitizeFrom (some e) rest
      | none => e :: sanitizeFrom (some e) rest

/-- `sanitizeFailoverTable(highSeqno)`: the `int64_t` seqno reaches
`createEntry` as a `uint64_t`. -/
def sanitizeFailoverTable (t : FailoverTable) (highSeqno : Int) (draws : List UInt64) :
    Option FailoverTable :=
  let table := sanitizeFrom none t.table
  let t := { t with table,
                    erroneousEntriesErased :=
                      t.erroneousEntriesErased + (t.table.length - table.length) }
  match table with
  | [] => createEntry t (UInt64.ofInt highSeqno) draws
  | _ :: _ => if t.erroneousEntriesErased ≠ 0 then some (cacheTableJSON t) else some t

/-- `constructFromJSON`'s reading of one array element. -/
def readEntry : Json → Option FailoverEntry
  | .obj kvs =>
    match Json.find kvs "id", Json.find kvs "seq" with
    | some jid, some jseq =>
      if jid.isNumber && jseq.isNumber then some ⟨jid.getUInt64, jseq.getUInt64⟩ else none
    | _, _ => none
  | _ => none

/-- `constructFromJSON`'s reading of the whole document: an array of entries,
at least one. -/
def readTable : Json → Option (List FailoverEntry)
  | .arr xs =>
    match xs.mapM readEntry with
    | some (e :: es) => some (e :: es)
    | _ => none
  | _ => none

/-- `constructFromJSON(json)`: on success the table, `latest_uuid` and the
cached JSON, which is the document itself. -/
def constructFromJSON (t : FailoverTable) (json : Json) : Option FailoverTable :=
  match readTable json with
  | some (e :: es) => some { t with table := e :: es, latestUuid := e.vbUuid,
                                    cachedTableJSON := json }
  | _ => none

/-- The members before the constructors' bodies run. -/
def empty (capacity : Nat) : FailoverTable :=
  { table := [], maxEntries := capacity, erroneousEntriesErased := 0, latestUuid := 0,
    cachedTableJSON := .null }

/-- `FailoverTable(capacity)`. -/
def new (capacity : Nat) (draws : List UInt64) : Option FailoverTable :=
  (createEntry (empty capacity) 0 draws).map cacheTableJSON

/-- `FailoverTable(json, capacity, highSeqno)`: throws when the JSON is not a
table, which is `none` here. -/
def ofJSON (json : Json) (capacity : Nat) (highSeqno : Int) (draws : List UInt64) :
    Option FailoverTable :=
  (constructFromJSON (empty capacity) json).bind fun t =>
    sanitizeFailoverTable t highSeqno draws

/-- The mutator calls on a table. -/
inductive Op where
  | createEntry (highSeqno : UInt64) (draws : List UInt64)
  | pruneEntries (seqno : UInt64) (draws : List UInt64)
  | removeLatestEntry
  | sanitizeFailoverTable (highSeqno : Int) (draws : List UInt64)

/-- One mutator call; `none` when it throws or finds no uuid. -/
def apply (t : FailoverTable) : Op → Option FailoverTable
  | .createEntry highSeqno draws => createEntry t highSeqno draws
  | .pruneEntries seqno draws => pruneEntries t seqno draws
  | .removeLatestEntry => some (removeLatestEntry t)
  | .sanitizeFailoverTable highSeqno draws => sanitizeFailoverTable t highSeqno draws

/-- What the callers promise: `removeLatestEntry` is only called with more than
one entry (`DcpConsumer::handleRollbackResponse` checks `getNumEntries() > 1`). -/
def Op.Allowed (t : FailoverTable) : Op → Prop
  | .removeLatestEntry => 1 < t.table.length
  | _ => True

/-- The tables of a given capacity that a run can reach. -/
inductive Reachable (capacity : Nat) : FailoverTable → Prop
  | new {draws : List UInt64} {t : FailoverTable} :
      FailoverTable.new capacity draws = some t → Reachable capacity t
  | ofJSON {json : Json} {highSeqno : Int} {draws : List UInt64} {t : FailoverTable} :
      FailoverTable.ofJSON json capacity highSeqno draws = some t → Reachable capacity t
  | step {t t' : FailoverTable} {op : Op} :
      Reachable capacity t → op.Allowed t → apply t op = some t' → Reachable capacity t'

/-! ## The representation invariant -/

/-- Entries newest first: no entry has a higher `by_seqno` than one before it. -/
def NewestFirst (table : List FailoverEntry) : Prop :=
  table.Pairwise fun a b => b.bySeqno ≤ a.bySeqno

/-- The invariant of the table as the design keeps it. -/
structure Inv (t : FailoverTable) : Prop where
  nonempty : t.table ≠ []
  newestFirst : NewestFirst t.table
  uuidNonZero : ∀ e ∈ t.table, e.vbUuid ≠ 0
  cacheReadsBack : readTable t.cachedTableJSON = some t.table

/-- `latest_uuid` is the front entry's uuid. -/
def LatestIsFront (t : FailoverTable) : Prop :=
  t.table.head?.map FailoverEntry.vbUuid = some t.latestUuid

/-! ## Reading the rendering back -/

@[simp] theorem readEntry_renderEntry (e : FailoverEntry) :
    readEntry (renderEntry e) = some e := by
  have hseq : ("seq" == "id") = false := by decide
  simp [readEntry, renderEntry, Json.find, List.lookup, hseq]

theorem mapM_readEntry_render (table : List FailoverEntry) :
    (table.map renderEntry).mapM readEntry = some table := by
  induction table with
  | nil => rfl
  | cons e rest ih => simp [List.mapM_cons, ih]

/-- The rendering of a non-empty table reads back as the table. -/
theorem readTable_renderTable {table : List FailoverEntry} (h : table ≠ []) :
    readTable (renderTable table) = some table := by
  obtain ⟨e, rest, rfl⟩ := List.exists_cons_of_ne_nil h
  simp only [readTable, renderTable, mapM_readEntry_render]

/-! ## One lemma for each mutator -/

theorem generateUuid_ne_zero {draws : List UInt64} {uuid : UInt64}
    (h : generateUuid draws = some uuid) : uuid ≠ 0 := by
  induction draws with
  | nil => simp [generateUuid] at h
  | cons d ds ih =>
    simp only [generateUuid] at h
    split at h
    · exact ih h
    · rename_i hd
      cases h
      exact hd

/-- The entries `createEntry` and `pruneEntries` keep are at or below the seqno. -/
theorem le_of_mem_filter {table : List FailoverEntry} {s : UInt64} {e : FailoverEntry}
    (h : e ∈ table.filter fun e => !(e.bySeqno > s)) : e.bySeqno ≤ s := by
  have hp := (List.mem_filter.mp h).2
  simpa using hp

theorem newestFirst_take {table : List FailoverEntry} (n : Nat) (h : NewestFirst table) :
    NewestFirst (table.take n) :=
  h.sublist (List.take_sublist n table)

theorem newestFirst_filter {table : List FailoverEntry} (p : FailoverEntry → Bool)
    (h : NewestFirst table) : NewestFirst (table.filter p) :=
  h.filter p

/-- A fresh entry at `s` in front of the entries at or below `s`. -/
theorem newestFirst_push {table : List FailoverEntry} (uuid s : UInt64)
    (h : NewestFirst table) :
    NewestFirst (⟨uuid, s⟩ :: table.filter fun e => !(e.bySeqno > s)) := by
  refine List.pairwise_cons.mpr ⟨?_, newestFirst_filter _ h⟩
  intro b hb
  exact le_of_mem_filter hb

/-- What `createEntry` returns: a fresh non-zero uuid at `high_seqno` in front
of the kept entries, capped, with both caches refreshed. -/
theorem createEntry_eq {t t' : FailoverTable} {highSeqno : UInt64} {draws : List UInt64}
    (h : createEntry t highSeqno draws = some t') :
    ∃ uuid, uuid ≠ 0 ∧ t' = cacheTableJSON { t with
      table := ({ vbUuid := uuid, bySeqno := highSeqno } ::
        t.table.filter fun e => !(e.bySeqno > highSeqno)).take t.maxEntries,
      latestUuid := uuid } := by
  simp only [createEntry] at h
  cases hu : generateUuid draws with
  | none => simp [hu] at h
  | some uuid =>
    simp only [hu] at h
    injection h with h
    exact ⟨uuid, generateUuid_ne_zero hu, h.symm⟩

/-- `createEntry` on a table that is newest first and free of zero uuids: the
invariant holds after it, the table fits `max_entries` and both caches are fresh. -/
theorem createEntry_inv {t t' : FailoverTable} {highSeqno : UInt64} {draws : List UInt64}
    (h : createEntry t highSeqno draws = some t') (hcap : 1 ≤ t.maxEntries)
    (hnew : NewestFirst t.table) (huuid : ∀ e ∈ t.table, e.vbUuid ≠ 0) :
    Inv t' ∧ t'.maxEntries = t.maxEntries ∧ t'.table.length ≤ t.maxEntries ∧
      LatestIsFront t' ∧ t'.cachedTableJSON = renderTable t'.table := by
  obtain ⟨uuid, hne, rfl⟩ := createEntry_eq h
  obtain ⟨m, hm⟩ : ∃ m, t.maxEntries = m + 1 := ⟨t.maxEntries - 1, by omega⟩
  -- the capped table still starts with the fresh entry
  have htake : ({ vbUuid := uuid, bySeqno := highSeqno } ::
      t.table.filter fun e => !(e.bySeqno > highSeqno)).take t.maxEntries =
      { vbUuid := uuid, bySeqno := highSeqno } ::
        (t.table.filter fun e => !(e.bySeqno > highSeqno)).take m := by
    rw [hm, List.take_succ_cons]
  refine ⟨⟨?_, ?_, ?_, ?_⟩, rfl, List.length_take_le _ _, ?_, rfl⟩
  · simp [cacheTableJSON, htake]
  · exact newestFirst_take _ (newestFirst_push uuid highSeqno hnew)
  · intro e he
    simp only [cacheTableJSON, htake, List.mem_cons] at he
    rcases he with rfl | he
    · exact hne
    · exact huuid e (List.mem_of_mem_filter (List.mem_of_mem_take he))
  · exact readTable_renderTable (by simp [htake])
  · simp [LatestIsFront, cacheTableJSON, htake]

/-- What `pruneEntries` returns: the kept entries, or a single fresh entry. -/
theorem pruneEntries_eq {t t' : FailoverTable} {seqno : UInt64} {draws : List UInt64}
    (h : pruneEntries t seqno draws = some t') :
    (∃ e rest, t.table.filter (fun e => !(e.bySeqno > seqno)) = e :: rest ∧
      t' = cacheTableJSON { t with table := e :: rest, latestUuid := e.vbUuid }) ∨
    (t.table.filter (fun e => !(e.bySeqno > seqno)) = [] ∧ ∃ uuid, uuid ≠ 0 ∧
      t' = cacheTableJSON { t with table := [{ vbUuid := uuid, bySeqno := seqno }],
                                   latestUuid := uuid }) := by
  simp only [pruneEntries] at h
  split at h
  · cases h
  · split at h
    · rename_i e rest hkept
      injection h with h
      exact .inl ⟨e, rest, hkept, h.symm⟩
    · rename_i hkept
      cases hu : generateUuid draws with
      | none => simp [hu] at h
      | some uuid =>
        simp only [hu] at h
        injection h with h
        exact .inr ⟨hkept, uuid, generateUuid_ne_zero hu, h.symm⟩

/-- `pruneEntries` keeps the invariant, never grows a non-empty table, and
refreshes both caches. -/
theorem pruneEntries_inv {t t' : FailoverTable} {seqno : UInt64} {draws : List UInt64}
    (hinv : Inv t) (h : pruneEntries t seqno draws = some t') :
    Inv t' ∧ t'.maxEntries = t.maxEntries ∧ t'.table.length ≤ t.table.length ∧
      LatestIsFront t' ∧ t'.cachedTableJSON = renderTable t'.table := by
  rcases pruneEntries_eq h with ⟨e, rest, hkept, rfl⟩ | ⟨-, uuid, hne, rfl⟩
  · -- some entries survive: they are a sublist of a good table
    have hsub : (e :: rest).Sublist t.table := hkept ▸ List.filter_sublist
    refine ⟨⟨by simp [cacheTableJSON], hinv.newestFirst.sublist hsub, ?_, ?_⟩, rfl,
      hsub.length_le, by simp [LatestIsFront, cacheTableJSON], rfl⟩
    · intro x hx
      exact hinv.uuidNonZero x (hsub.subset hx)
    · exact readTable_renderTable (by simp)
  · -- everything was above `seqno`: a single fresh entry
    have hpos : 1 ≤ t.table.length := by
      cases ht : t.table with
      | nil => exact absurd ht hinv.nonempty
      | cons _ _ => simp
    refine ⟨⟨by simp [cacheTableJSON], by simp [NewestFirst, cacheTableJSON], ?_, ?_⟩, rfl,
      by simpa [cacheTableJSON] using hpos, by simp [LatestIsFront, cacheTableJSON], rfl⟩
    · intro x hx
      simp only [cacheTableJSON, List.mem_singleton] at hx
      rw [hx]
      exact hne
    · exact readTable_renderTable (by simp)

/-- `removeLatestEntry` with more than one entry keeps the invariant and
re-renders the JSON. -/
theorem removeLatestEntry_inv {t : FailoverTable} (hinv : Inv t) (hlen : 1 < t.table.length) :
    Inv (removeLatestEntry t) ∧ (removeLatestEntry t).maxEntries = t.maxEntries ∧
      (removeLatestEntry t).cachedTableJSON = renderTable (removeLatestEntry t).table := by
  obtain ⟨e, rest, ht⟩ := List.exists_cons_of_ne_nil hinv.nonempty
  have hrest : rest ≠ [] := by
    intro hnil
    rw [ht, hnil] at hlen
    simp at hlen
  have hnew := hinv.newestFirst
  rw [ht] at hnew
  simp only [removeLatestEntry, ht]
  refine ⟨⟨hrest, (List.pairwise_cons.mp hnew).2, ?_, readTable_renderTable hrest⟩, rfl, rfl⟩
  intro x hx
  exact hinv.uuidNonZero x (by rw [ht]; exact List.mem_cons_of_mem e hx)

/-! ## The sanitizer -/

theorem sanitizeFrom_sublist (prev : Option FailoverEntry) (table : List FailoverEntry) :
    (sanitizeFrom prev table).Sublist table := by
  induction table generalizing prev with
  | nil => simp [sanitizeFrom]
  | cons e rest ih =>
    simp only [sanitizeFrom]
    split
    · exact (ih prev).cons e
    · split
      · split
        · exact (ih _).cons e
        · exact (ih _).cons_cons e
      · exact (ih _).cons_cons e

theorem uuid_ne_zero_of_mem_sanitizeFrom {prev : Option FailoverEntry}
    {table : List FailoverEntry} {x : FailoverEntry} (hx : x ∈ sanitizeFrom prev table) :
    x.vbUuid ≠ 0 := by
  induction table generalizing prev with
  | nil => simp [sanitizeFrom] at hx
  | cons e rest ih =>
    simp only [sanitizeFrom] at hx
    split at hx
    · exact ih hx
    · rename_i he
      split at hx
      · split at hx
        · exact ih hx
        · rcases List.mem_cons.mp hx with rfl | hx
          · exact he
          · exact ih hx
      · rcases List.mem_cons.mp hx with rfl | hx
        · exact he
        · exact ih hx

/-- Every entry kept after `p` is at or below `p`. -/
theorem le_of_mem_sanitizeFrom {p : FailoverEntry} {table : List FailoverEntry}
    {x : FailoverEntry} (hx : x ∈ sanitizeFrom (some p) table) : x.bySeqno ≤ p.bySeqno := by
  induction table generalizing p with
  | nil => simp [sanitizeFrom] at hx
  | cons e rest ih =>
    simp only [sanitizeFrom] at hx
    split at hx
    · exact ih hx
    · split at hx
      · exact ih hx
      · rename_i hle
        rcases List.mem_cons.mp hx with rfl | hx
        · exact UInt64.not_lt.mp hle
        · exact UInt64.le_trans (ih hx) (UInt64.not_lt.mp hle)

/-- The sanitizer's output is newest first: each kept entry is compared with
the previous kept one, and the comparison is transitive. -/
theorem newestFirst_sanitizeFrom (prev : Option FailoverEntry) (table : List FailoverEntry) :
    NewestFirst (sanitizeFrom prev table) := by
  induction table generalizing prev with
  | nil => simp [sanitizeFrom, NewestFirst]
  | cons e rest ih =>
    simp only [sanitizeFrom]
    split
    · exact ih prev
    · split
      · split
        · exact ih _
        · exact List.pairwise_cons.mpr ⟨fun x hx => le_of_mem_sanitizeFrom hx, ih _⟩
      · exact List.pairwise_cons.mpr ⟨fun x hx => le_of_mem_sanitizeFrom hx, ih _⟩

/-- `sanitizeFailoverTable` establishes the invariant from any table whose
cached JSON reads back as it, which is what `constructFromJSON` leaves. -/
theorem sanitizeFailoverTable_inv {t t' : FailoverTable} {highSeqno : Int}
    {draws : List UInt64} (hcap : 1 ≤ t.maxEntries)
    (hcache : readTable t.cachedTableJSON = some t.table)
    (h : sanitizeFailoverTable t highSeqno draws = some t') :
    Inv t' ∧ t'.maxEntries = t.maxEntries := by
  have hsub := sanitizeFrom_sublist none t.table
  simp only [sanitizeFailoverTable] at h
  split at h
  · -- nothing survived: a fresh entry at `highSeqno`
    rename_i hnil
    have hc := createEntry_inv h hcap (by simp [hnil, NewestFirst]) (by simp [hnil])
    exact ⟨hc.1, hc.2.1⟩
  · rename_i e rest hkept
    have hnew : NewestFirst (e :: rest) := hkept ▸ newestFirst_sanitizeFrom none t.table
    have huuid : ∀ x ∈ e :: rest, x.vbUuid ≠ 0 := fun x hx =>
      uuid_ne_zero_of_mem_sanitizeFrom (hkept ▸ hx)
    split at h
    · -- something was erased at some point: the JSON is rendered again
      injection h with h
      subst h
      refine ⟨⟨?_, ?_, ?_, ?_⟩, rfl⟩ <;> simp only [cacheTableJSON, hkept]
      · exact List.cons_ne_nil e rest
      · exact hnew
      · exact huuid
      · exact readTable_renderTable (List.cons_ne_nil e rest)
    · -- nothing was ever erased: the table and its cached JSON are unchanged
      rename_i hzero
      injection h with h
      subst h
      have hlen : (sanitizeFrom none t.table).length = t.table.length := by
        have := hsub.length_le
        simp at hzero
        omega
      have hsame : sanitizeFrom none t.table = t.table := hsub.eq_of_length hlen
      refine ⟨⟨?_, ?_, ?_, ?_⟩, rfl⟩ <;> simp only [hsame]
      · rw [← hsame, hkept]
        exact List.cons_ne_nil e rest
      · rw [← hsame, hkept]
        exact hnew
      · rw [← hsame, hkept]
        exact huuid
      · exact hcache

/-! ## Reachable tables -/

/-- `new`: `createEntry(0)` on the empty table, then `cacheTableJSON` again. -/
theorem new_inv {capacity : Nat} {draws : List UInt64} {t : FailoverTable}
    (hcap : 1 ≤ capacity) (h : FailoverTable.new capacity draws = some t) :
    Inv t ∧ t.maxEntries = capacity ∧ LatestIsFront t := by
  simp only [FailoverTable.new, Option.map_eq_some_iff] at h
  obtain ⟨t₀, hc, rfl⟩ := h
  obtain ⟨hinv, hmax, -, hlatest, -⟩ :=
    createEntry_inv hc hcap (by simp [empty, NewestFirst]) (by simp [empty])
  exact ⟨⟨hinv.nonempty, hinv.newestFirst, hinv.uuidNonZero,
    readTable_renderTable hinv.nonempty⟩, hmax, hlatest⟩

/-- `constructFromJSON` leaves a cached JSON that reads back as the table. -/
theorem constructFromJSON_cache {t t' : FailoverTable} {json : Json}
    (h : constructFromJSON t json = some t') :
    readTable t'.cachedTableJSON = some t'.table ∧ t'.maxEntries = t.maxEntries := by
  simp only [constructFromJSON] at h
  split at h
  · rename_i e es hread
    injection h with h
    subst h
    exact ⟨hread, rfl⟩
  · cases h

/-- Every reachable table of a capacity of at least one keeps `Inv`; the
induction is over `Reachable`, one mutator lemma per step. -/
theorem reachable_inv {capacity : Nat} (hcap : 1 ≤ capacity) {t : FailoverTable}
    (h : Reachable capacity t) : Inv t ∧ t.maxEntries = capacity := by
  induction h with
  | new hnew =>
    obtain ⟨hinv, hmax, -⟩ := new_inv hcap hnew
    exact ⟨hinv, hmax⟩
  | ofJSON hjson =>
    simp only [ofJSON, Option.bind_eq_some_iff] at hjson
    obtain ⟨t₀, hc, hs⟩ := hjson
    obtain ⟨hcache, hmax⟩ := constructFromJSON_cache hc
    obtain ⟨hinv, hmax'⟩ := sanitizeFailoverTable_inv (by rw [hmax]; exact hcap) hcache hs
    exact ⟨hinv, hmax'.trans hmax⟩
  | step _ hallowed happ ih =>
    obtain ⟨hinv, hmax⟩ := ih
    rename_i op _
    cases op with
    | createEntry highSeqno draws =>
      obtain ⟨hinv', hmax', -⟩ :=
        createEntry_inv happ (by rw [hmax]; exact hcap) hinv.newestFirst hinv.uuidNonZero
      exact ⟨hinv', hmax'.trans hmax⟩
    | pruneEntries seqno draws =>
      obtain ⟨hinv', hmax', -⟩ := pruneEntries_inv hinv happ
      exact ⟨hinv', hmax'.trans hmax⟩
    | removeLatestEntry =>
      injection happ with happ
      subst happ
      obtain ⟨hinv', hmax', -⟩ := removeLatestEntry_inv hinv hallowed
      exact ⟨hinv', hmax'.trans hmax⟩
    | sanitizeFailoverTable highSeqno draws =>
      obtain ⟨hinv', hmax'⟩ :=
        sanitizeFailoverTable_inv (by rw [hmax]; exact hcap) hinv.cacheReadsBack happ
      exact ⟨hinv', hmax'.trans hmax⟩

end FailoverTable

end KvEngine
