import KvEngine.VBucket.FrontEnd
import KvEngine.Lib.WinnerFold
import Mathlib

/-!
# XDCR conflict resolution (`conflict_resolution.cc`)

A document that arrives by XDCR (`setWithMeta`, `deleteWithMeta`) is stored
when `resolve` accepts it against the local document. Both strategies compare
a tuple of the two documents' metadata, the larger winning: revision first for
`RevisionSeqnoResolution`, CAS first for `LastWriteWinsResolution`. A deletion
compares only revision and CAS; any other document also compares expiry and
flags, and a tie goes to an incoming body with extended attributes over a
local one without. `resolveWith` is that comparison with the two tuples as
parameters, each strategy is `resolveWith` at its own tuples, and
`resolveWith_eq_accept_iff` says once when it accepts.

`x` beats `y` (`Beats`) when `resolve` accepts `x`, with its own datatype and
deleted state, at a node that holds `y`. For any `KeyOrder`, so for either
strategy:
- `beats_irrefl`, `beats_trans`: `Beats` is a strict order on the documents
  that are not temporary items (`isStrictOn_beats`), so at most one of two
  documents beats the other;
- `beats_or_beats`: of two documents whose `version` differs, one beats the
  other when both are alive, or when their revision or CAS differ
  (`Comparable`);
- `exchange_converges`: nodes that each start from one of a set of pairwise
  comparable documents and receive all the others, in any order, end with the
  same version.

A deletion and another document with the same revision and CAS need not be
ordered: `tombstone_ties_live_version` is a document and its deletion, each
rejected as identical at the other's node, so that two nodes exchanging them
keep different versions.
-/

namespace KvEngine.VBucket

/-- `ConflictResolution::Result`. -/
inductive ConflictResolution.Result where
  | accept
  | rejectIdentical
  | rejectBehind
  deriving DecidableEq, Repr

open ConflictResolution (Result)

/-- The metadata `resolve` reads from the local document. -/
def StoredValue.metaData (v : StoredValue) : ItemMetaData := ⟨v.cas, v.revSeqno, v.flags, v.exptime⟩

/-- `resolve` of either strategy, with the tuple it compares for a deletion
(`deleteKey`) and for any other document (`liveKey`); `std::tuple`'s `<` is
the lexicographic order of the lists. -/
def resolveWith (deleteKey liveKey : ItemMetaData → List Nat) (v : StoredValue) (metadata : ItemMetaData)
    (metaDatatype : Nat) (isDelete : Bool) : Result :=
  if v.isTempNonExistentItem then .accept
  else if isDelete then
    let existing := deleteKey v.metaData
    let incoming := deleteKey metadata
    if existing < incoming then .accept
    else if incoming < existing then .rejectBehind
    else .rejectIdentical
  else
    let existing := liveKey v.metaData
    let incoming := liveKey metadata
    if existing < incoming then .accept
    else if incoming < existing then .rejectBehind
    else if isXattr metaDatatype && !isXattr v.datatype then .accept
    else .rejectIdentical

/-- `RevisionSeqnoResolution::resolve`: revision, CAS, expiry, flags. -/
def RevisionSeqnoResolution.resolve : StoredValue → ItemMetaData → Nat → Bool → Result :=
  resolveWith (fun m => [m.revSeqno, m.cas]) (fun m => [m.revSeqno, m.cas, m.exptime, m.flags])

/-- `LastWriteWinsResolution::resolve`: CAS, revision, expiry, flags. -/
def LastWriteWinsResolution.resolve : StoredValue → ItemMetaData → Nat → Bool → Result :=
  resolveWith (fun m => [m.cas, m.revSeqno]) (fun m => [m.cas, m.revSeqno, m.exptime, m.flags])

/-- When `resolveWith` accepts at a local document that is not a temporary
item: a deletion with a larger tuple, or another document with a larger
tuple or with the same tuple and extended attributes the local one lacks. -/
theorem resolveWith_eq_accept_iff {deleteKey liveKey : ItemMetaData → List Nat} {v : StoredValue}
    {metadata : ItemMetaData} {metaDatatype : Nat} {isDelete : Bool} (hv : v.isTempNonExistentItem = false) :
    resolveWith deleteKey liveKey v metadata metaDatatype isDelete = .accept ↔
      if isDelete then deleteKey v.metaData < deleteKey metadata
      else liveKey v.metaData < liveKey metadata ∨
        (liveKey metadata = liveKey v.metaData ∧ isXattr metaDatatype = true ∧ isXattr v.datatype = false) := by
  unfold resolveWith
  rw [if_neg (by simp [hv])]
  cases isDelete with
  | true =>
    simp only [if_true]
    split_ifs with h1 h2 <;> simp [*]
  | false =>
    simp only [Bool.false_eq_true, if_false]
    by_cases h1 : liveKey v.metaData < liveKey metadata
    · simp [h1]
    by_cases h2 : liveKey metadata < liveKey v.metaData
    · simp [h1, h2, h2.ne]
    -- neither tuple is larger: the extended attributes decide
    have heq : liveKey metadata = liveKey v.metaData := le_antisymm (not_lt.mp h1) (not_lt.mp h2)
    simp only [heq, true_and]
    cases isXattr metaDatatype <;> cases isXattr v.datatype <;> simp

/-! ## The order the strategies share -/

/-- The two tuples of a strategy, with what the proofs need of them: the
document's tuple determines its metadata, the deletion's tuple is its revision
and CAS, and the document's tuple orders as the deletion's does where those
differ. -/
structure KeyOrder where
  deleteKey : ItemMetaData → List Nat
  liveKey : ItemMetaData → List Nat
  liveKey_injective : Function.Injective liveKey
  deleteKey_eq_iff : ∀ a b, deleteKey a = deleteKey b ↔ a.revSeqno = b.revSeqno ∧ a.cas = b.cas
  liveKey_lt_of_deleteKey_lt : ∀ a b, deleteKey a < deleteKey b → liveKey a < liveKey b
  not_deleteKey_lt_of_liveKey_lt : ∀ a b, liveKey a < liveKey b → ¬ deleteKey b < deleteKey a

/-- The strategy's `resolve`. -/
def KeyOrder.resolve (o : KeyOrder) : StoredValue → ItemMetaData → Nat → Bool → Result :=
  resolveWith o.deleteKey o.liveKey

/-- Revision first. -/
def revisionSeqno : KeyOrder where
  deleteKey m := [m.revSeqno, m.cas]
  liveKey m := [m.revSeqno, m.cas, m.exptime, m.flags]
  liveKey_injective a b h := by
    cases a
    cases b
    simp_all
  deleteKey_eq_iff a b := by simp
  liveKey_lt_of_deleteKey_lt a b h := by
    simp only [List.cons_lt_cons_iff, List.not_lt_nil, and_false, or_false] at h ⊢
    omega
  not_deleteKey_lt_of_liveKey_lt a b h := by
    simp only [List.cons_lt_cons_iff, List.not_lt_nil, and_false, or_false] at h ⊢
    omega

/-- CAS first. -/
def lastWriteWins : KeyOrder where
  deleteKey m := [m.cas, m.revSeqno]
  liveKey m := [m.cas, m.revSeqno, m.exptime, m.flags]
  liveKey_injective a b h := by
    cases a
    cases b
    simp_all
  deleteKey_eq_iff a b := by
    simp only [List.cons.injEq, and_true]
    exact and_comm
  liveKey_lt_of_deleteKey_lt a b h := by
    simp only [List.cons_lt_cons_iff, List.not_lt_nil, and_false, or_false] at h ⊢
    omega
  not_deleteKey_lt_of_liveKey_lt a b h := by
    simp only [List.cons_lt_cons_iff, List.not_lt_nil, and_false, or_false] at h ⊢
    omega

theorem RevisionSeqnoResolution.resolve_eq : RevisionSeqnoResolution.resolve = revisionSeqno.resolve := rfl

theorem LastWriteWinsResolution.resolve_eq : LastWriteWinsResolution.resolve = lastWriteWins.resolve := rfl

/-! ## Which document beats which -/

/-- `x` beats `y` when `resolve` accepts `x`, with its own datatype and
deleted state, at a node that holds `y`. -/
def Beats (resolve : StoredValue → ItemMetaData → Nat → Bool → Result) (x y : StoredValue) : Prop :=
  resolve y x.metaData x.datatype x.deleted = .accept

instance {resolve : StoredValue → ItemMetaData → Nat → Bool → Result} : DecidableRel (Beats resolve) :=
  fun x y => inferInstanceAs (Decidable (resolve y x.metaData x.datatype x.deleted = .accept))

/-- What the strategies compare of a document: its metadata, whether it is
deleted and whether its body has extended attributes. -/
def StoredValue.version (v : StoredValue) : ItemMetaData × Bool × Bool :=
  (v.metaData, v.deleted, isXattr v.datatype)

/-- Two documents that the strategies order: both alive, or with different
revisions or CAS. -/
def Comparable (x y : StoredValue) : Prop :=
  (x.deleted = false ∧ y.deleted = false) ∨ x.revSeqno ≠ y.revSeqno ∨ x.cas ≠ y.cas

section KeyOrder

variable {o : KeyOrder} {x y z : StoredValue}

theorem beats_iff (hy : y.isTempNonExistentItem = false) :
    Beats o.resolve x y ↔
      if x.deleted then o.deleteKey y.metaData < o.deleteKey x.metaData
      else o.liveKey y.metaData < o.liveKey x.metaData ∨
        (o.liveKey x.metaData = o.liveKey y.metaData ∧ isXattr x.datatype = true ∧
          isXattr y.datatype = false) :=
  resolveWith_eq_accept_iff hy

/-- A document beats only documents whose deletion tuple is not larger. -/
theorem not_deleteKey_lt_of_beats (hy : y.isTempNonExistentItem = false) (h : Beats o.resolve x y) :
    ¬ o.deleteKey x.metaData < o.deleteKey y.metaData := by
  rw [beats_iff hy] at h
  cases hx : x.deleted
  · simp only [hx, Bool.false_eq_true, if_false] at h
    rcases h with hlt | ⟨heq, -⟩
    · exact o.not_deleteKey_lt_of_liveKey_lt _ _ hlt
    · rw [o.liveKey_injective heq]
      exact lt_irrefl _
  · simp only [hx, if_true] at h
    exact lt_asymm h

theorem beats_irrefl (hx : x.isTempNonExistentItem = false) : ¬ Beats o.resolve x x := by
  rw [beats_iff hx]
  split_ifs
  · exact lt_irrefl _
  · rintro (hlt | ⟨-, htrue, hfalse⟩)
    · exact lt_irrefl _ hlt
    · rw [htrue] at hfalse
      cases hfalse

theorem beats_trans (hy : y.isTempNonExistentItem = false) (hz : z.isTempNonExistentItem = false)
    (hxy : Beats o.resolve x y) (hyz : Beats o.resolve y z) : Beats o.resolve x z := by
  have hyz_le := not_deleteKey_lt_of_beats hz hyz
  rw [beats_iff hy] at hxy
  rw [beats_iff hz] at hyz ⊢
  cases hx : x.deleted
  · simp only [hx, Bool.false_eq_true, if_false] at hxy ⊢
    cases hyd : y.deleted
    · simp only [hyd, Bool.false_eq_true, if_false] at hyz
      -- both alive: the document tuples, then the extended attributes
      rcases hxy with hxy | ⟨hxy, hxa, hya⟩ <;> rcases hyz with hyz | ⟨hyz, hya', hza⟩
      · exact .inl (lt_trans hyz hxy)
      · exact .inl (hyz ▸ hxy)
      · exact .inl (hxy ▸ hyz)
      · rw [hya] at hya'
        cases hya'
    · -- `y` is a deletion that beats `z` on the deletion tuple
      simp only [hyd, if_true] at hyz
      have hxy_le : ¬ o.deleteKey x.metaData < o.deleteKey y.metaData := by
        rcases hxy with hlt | ⟨heq, -⟩
        · exact o.not_deleteKey_lt_of_liveKey_lt _ _ hlt
        · rw [o.liveKey_injective heq]
          exact lt_irrefl _
      exact .inl (o.liveKey_lt_of_deleteKey_lt _ _ (lt_of_lt_of_le hyz (not_lt.mp hxy_le)))
  · simp only [hx, if_true] at hxy ⊢
    exact lt_of_le_of_lt (not_lt.mp hyz_le) hxy

theorem isStrictOn_beats : IsStrictOn (Beats o.resolve) (fun v => v.isTempNonExistentItem = false) :=
  ⟨fun _ hx => beats_irrefl hx, fun _ _ _ _ hy hz => beats_trans hy hz⟩

/-- Of two comparable documents of different versions, one beats the
other. -/
theorem beats_or_beats (hx : x.isTempNonExistentItem = false) (hy : y.isTempNonExistentItem = false)
    (hne : x.version ≠ y.version) (hc : Comparable x y) : Beats o.resolve x y ∨ Beats o.resolve y x := by
  rw [beats_iff hy, beats_iff hx]
  by_cases hd : o.deleteKey x.metaData = o.deleteKey y.metaData
  · -- same revision and CAS: both are alive, and differ in the rest
    have hrc := (o.deleteKey_eq_iff _ _).mp hd
    obtain ⟨hxd, hyd⟩ : x.deleted = false ∧ y.deleted = false := by
      rcases hc with h | h | h
      · exact h
      · exact absurd hrc.1 h
      · exact absurd hrc.2 h
    simp only [hxd, hyd, Bool.false_eq_true, if_false]
    rcases lt_trichotomy (o.liveKey x.metaData) (o.liveKey y.metaData) with hlt | heq | hlt
    · exact .inr (.inl hlt)
    · -- same metadata, so the extended attributes differ
      have hmeta := o.liveKey_injective heq
      have hxa : isXattr x.datatype ≠ isXattr y.datatype := by
        intro hxa
        exact hne (by simp [StoredValue.version, hmeta, hxd, hyd, hxa])
      cases hxv : isXattr x.datatype <;> cases hyv : isXattr y.datatype <;> simp_all
    · exact .inl (.inl hlt)
  · -- a larger deletion tuple means a larger document tuple
    rcases lt_or_gt_of_ne hd with hlt | hlt
    · right
      split_ifs
      · exact hlt
      · exact .inl (o.liveKey_lt_of_deleteKey_lt _ _ hlt)
    · left
      split_ifs
      · exact hlt
      · exact .inl (o.liveKey_lt_of_deleteKey_lt _ _ hlt)

/-- Nodes that each start from one of the documents `a :: l`, not temporary
items and pairwise comparable, and receive all the others in any order, end
with the same version. -/
theorem exchange_converges {a b : StoredValue} {l l' : List StoredValue} (hp : (a :: l).Perm (b :: l'))
    (hP : ∀ v ∈ a :: l, v.isTempNonExistentItem = false)
    (hc : ∀ v ∈ a :: l, ∀ w ∈ a :: l, v.version ≠ w.version → Comparable v w) :
    (l.foldl (keepWinner (Beats o.resolve)) a).version = (l'.foldl (keepWinner (Beats o.resolve)) b).version := by
  refine foldl_keepWinner_perm isStrictOn_beats hp hP fun v hv w hw hvw hwv => ?_
  by_contra hne
  rcases beats_or_beats (hP v hv) (hP w hw) hne (hc v hv w hw hne) with h | h
  · exact hvw h
  · exact hwv h

end KeyOrder

/-- What makes XDCR converge under `resolve`, for documents that are not
temporary items: at most one of two documents beats the other, one does when
they are comparable and of different versions, beating is transitive, and
nodes that exchange pairwise comparable documents in any order end with the
same version. -/
structure ConvergentResolution (resolve : StoredValue → ItemMetaData → Nat → Bool → Result) : Prop where
  asymm : ∀ x y : StoredValue, x.isTempNonExistentItem = false → y.isTempNonExistentItem = false →
    Beats resolve x y → ¬ Beats resolve y x
  total : ∀ x y : StoredValue, x.isTempNonExistentItem = false → y.isTempNonExistentItem = false →
    x.version ≠ y.version → Comparable x y → Beats resolve x y ∨ Beats resolve y x
  trans : ∀ x y z : StoredValue, y.isTempNonExistentItem = false → z.isTempNonExistentItem = false →
    Beats resolve x y → Beats resolve y z → Beats resolve x z
  converges : ∀ (a b : StoredValue) (l l' : List StoredValue), (a :: l).Perm (b :: l') →
    (∀ v ∈ a :: l, v.isTempNonExistentItem = false) →
    (∀ v ∈ a :: l, ∀ w ∈ a :: l, v.version ≠ w.version → Comparable v w) →
    (l.foldl (keepWinner (Beats resolve)) a).version = (l'.foldl (keepWinner (Beats resolve)) b).version

theorem KeyOrder.convergentResolution (o : KeyOrder) : ConvergentResolution o.resolve where
  asymm _ _ hx hy hxy hyx := beats_irrefl hx (beats_trans hy hx hxy hyx)
  total _ _ hx hy hne hc := beats_or_beats hx hy hne hc
  trans _ _ _ hy hz hxy hyz := beats_trans hy hz hxy hyz
  converges _ _ _ _ hp hP hc := exchange_converges hp hP hc

theorem xdcr_resolution_converges :
    ConvergentResolution RevisionSeqnoResolution.resolve ∧ ConvergentResolution LastWriteWinsResolution.resolve :=
  ⟨revisionSeqno.convergentResolution, lastWriteWins.convergentResolution⟩

/-! ## A document and its deletion -/

/-- A live document at revision 3, with CAS 100. -/
def xdcrDoc : StoredValue := ⟨some [0x61], 100, 0, 0, 0, 0, 3, 7, 0, false, .committedViaMutation, false⟩

/-- Its deletion, with the same metadata. -/
def xdcrTombstone : StoredValue := { xdcrDoc with value := none, deleted := true }

/-- A document and its deletion with the same revision and CAS differ only in
the deleted state, and under either strategy each is rejected as identical at
the node that holds the other: two nodes that exchange them keep different
versions. -/
theorem tombstone_ties_live_version :
    xdcrDoc.version ≠ xdcrTombstone.version ∧
      RevisionSeqnoResolution.resolve xdcrDoc xdcrTombstone.metaData xdcrTombstone.datatype true = .rejectIdentical ∧
      RevisionSeqnoResolution.resolve xdcrTombstone xdcrDoc.metaData xdcrDoc.datatype false = .rejectIdentical ∧
      LastWriteWinsResolution.resolve xdcrDoc xdcrTombstone.metaData xdcrTombstone.datatype true = .rejectIdentical ∧
      LastWriteWinsResolution.resolve xdcrTombstone xdcrDoc.metaData xdcrDoc.datatype false = .rejectIdentical ∧
      keepWinner (Beats RevisionSeqnoResolution.resolve) xdcrDoc xdcrTombstone = xdcrDoc ∧
      keepWinner (Beats RevisionSeqnoResolution.resolve) xdcrTombstone xdcrDoc = xdcrTombstone := by
  decide

end KvEngine.VBucket
