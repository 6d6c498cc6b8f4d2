import Mathlib
import VeloTransfer.ExceptProofs
import VeloTransfer.KeepFirstProofs
import VeloTransfer.Sha256Proofs
import VeloTransfer.FlowResultsProofs

/-! # The files of a flow — an inventory without an order

    The rows of a flow's uploads name files and, for a sparse file, its index.  One pass
    merges them through three dictionaries, a second one pairs each file with its index.

    * `merge_iff` — the first pass goes through exactly when any two rows are compatible;
    * `pairing_iff` — what the second one makes of the files;
    * `inventory_lawful` — so the inventory depends on which rows there are, not on their
      order or number, and it misses and repeats nothing. -/

namespace FlowFiles

open CanonicalJson ExceptRules KeepFirst
open JsonDict (canonical)
open McpCore (Raised canonicalJsonBytes textsOf)
open Sha256 (hexdigest)

/-- What the interpreter contributes: `str.casefold`, and the value of a float. -/
structure Python where
  casefold : Text → Text
  floatValue : Text → ℚ

/-! ## `==` on JSON values -/

/-- A number by its value. -/
def number (q : ℚ) : Json := if q.den = 1 then .int q.num else .float (renderInt q.num ++ 47 :: decimal q.den)

mutual

/-- The value as Python compares it: `True` is `1`, and so is `1.0`. -/
def compared (py : Python) : Json → Json
  | .bool b => .int (if b then 1 else 0)
  | .float token => number (py.floatValue token)
  | .arr items => .arr (comparedItems py items)
  | .obj fields => .obj (comparedFields py fields)
  | v => v

def comparedItems (py : Python) : List Json → List Json
  | [] => []
  | x :: xs => compared py x :: comparedItems py xs

def comparedFields (py : Python) : List (Text × Json) → List (Text × Json)
  | [] => []
  | (k, v) :: fs => (k, compared py v) :: comparedFields py fs

end

/-- `==`. -/
def sameJson (py : Python) (v w : Json) : Bool := canonical (compared py v) == canonical (compared py w)

/-! ## Records -/

structure FileRecord where
  fileId : Text
  identity : Json
  components : List Text
  originalPath : Text
  fileSize : Int
  uploadedSize : Int
  accessor : Text
  indexSelector : Option (List Text)

inductive Kind where
  | data
  | idx
deriving DecidableEq, Repr

structure UploadRecord where
  kind : Kind
  file : FileRecord
  selector : List Text

structure FileInventory where
  records : List FileRecord
  sparseCount : Nat
  sizeMismatchCount : Nat

/-- What the dataclass compares: the fields, the identity as Python compares it. -/
structure FileView where
  fileId : Text
  identity : Text
  components : List Text
  originalPath : Text
  fileSize : Int
  uploadedSize : Int
  accessor : Text
  indexSelector : Option (List Text)
deriving DecidableEq

def FileRecord.view (py : Python) (r : FileRecord) : FileView :=
  { r with identity := canonical (compared py r.identity) }

def FileRecord.same (py : Python) (r s : FileRecord) : Bool := decide (r.view py = s.view py)

def UploadRecord.same (py : Python) (u v : UploadRecord) : Bool :=
  decide (u.kind = v.kind) && u.file.same py v.file && decide (u.selector = v.selector)

/-! ## One row -/

def metadataError (reason : String) : Raised := .backend "list_flow_files" reason

/-- `raise _metadata_error(reason)`, where the condition holds. -/
def refuse (condition : Bool) (reason : String) : Except Raised Unit :=
  if condition then .error (metadataError reason) else .ok ()

/-- `map[key] if key in map else row.get(other)`. -/
def ownOr (map row : List (Text × Json)) (key other : String) : Option Json :=
  match map.lookup (ascii key) with
  | some v => some v
  | none => row.lookup (ascii other)

/-- An integer that is neither a Boolean nor negative. -/
def sizeOf (v : Option Json) : Except Raised Int :=
  match v with
  | some (.int i) => if i < 0 then .error (metadataError "invalid_file_size") else .ok i
  | _ => .error (metadataError "invalid_file_size")

def typeOf (v : Json) : Except Raised Text :=
  match v with
  | .str s => .ok s
  | _ => .error (metadataError "unsupported_upload_type")

/-- A `None` is the empty type. -/
def nestedTypeOf (v : Option Json) : Except Raised Text :=
  match v with
  | none => .ok []
  | some .null => .ok []
  | some v => typeOf v

def componentsOf (v : Option Json) : Except Raised (List Text) :=
  match v with
  | some (.arr items) =>
      match textsOf items with
      | some (c :: cs) => .ok (c :: cs)
      | _ => .error (metadataError "invalid_sparse_pair")
  | _ => .error (metadataError "invalid_sparse_pair")

/-- The accessor of the upload, or else that of the row. -/
def accessorOf (own row : Option Json) : Except Raised Text :=
  let accessor := match own with
    | none => row.getD (.str [])
    | some .null => row.getD (.str [])
    | some v => v
  match accessor with
  | .str s => .ok s
  | _ => .error (metadataError "invalid_sparse_pair")

def pathOf (v : Json) : Except Raised Text :=
  match v with
  | .str s => .ok s
  | _ => .error (metadataError "invalid_sparse_pair")

/-- The last component, with the suffix of an index. -/
def indexSelectorOf (components : List Text) : List Text :=
  components.dropLast ++ (components.getLast?.map (· ++ ascii ".idx")).toList

/-- `_upload_record`. -/
def uploadRecord (clientId flowId : Text) (row : List (Text × Json)) : Except Raised UploadRecord := do
  let upload := match row.lookup (ascii "Upload") with
    | some (.obj fields) => fields
    | _ => []
  let rawType ← typeOf ((row.lookup (ascii "Type")).getD (.str []))
  refuse (rawType != [] && rawType != ascii "idx") "unsupported_upload_type"
  let nestedType ← nestedTypeOf (upload.lookup (ascii "Type"))
  refuse (nestedType != [] && nestedType != rawType) "unsupported_upload_type"
  let kind := if rawType = ascii "idx" then Kind.idx else Kind.data
  let components ← componentsOf (ownOr upload row "Components" "_Components")
  refuse (components.take 5 != [ascii "clients", clientId, ascii "collections", flowId, ascii "uploads"])
    "invalid_sparse_pair"
  let accessor ← accessorOf (upload.lookup (ascii "Accessor")) (row.lookup (ascii "_accessor"))
  let uploadId := (upload.lookup (ascii "UploadId")).getD .null
  let identity := Json.obj [(ascii "accessor", .str accessor), (ascii "components", .arr (components.map .str)),
    (ascii "upload_id", uploadId)]
  let raw ← canonicalJsonBytes identity
  let originalPath ← pathOf ((ownOr upload row "Path" "client_path").getD (.str []))
  let fileSize ← sizeOf (ownOr upload row "Size" "file_size")
  let uploadedSize ← sizeOf (ownOr upload row "StoredSize" "uploaded_size")
  let file : FileRecord :=
    { fileId := hexdigest raw, identity := identity, components := components, originalPath := originalPath,
      fileSize := fileSize, uploadedSize := uploadedSize, accessor := accessor, indexSelector := none }
  .ok { kind := kind, file := file, selector := if kind = .idx then indexSelectorOf components else components }

/-! ## The two passes -/

/-- What the first pass keeps of the rows. -/
structure Merge where
  records : List FileRecord
  byId : List (Text × FileRecord)
  indexes : List (Text × UploadRecord)
  selectors : List (List Text × (Kind × Text))

/-- One row of the first pass. -/
def mergeRow (py : Python) (clientId flowId : Text) (m : Merge) (row : List (Text × Json)) : Except Raised Merge := do
  let upload ← uploadRecord clientId flowId row
  let record := upload.file
  let selectors ← keep (fun v w => decide (v = w)) (metadataError "file_selector_conflict") m.selectors
    (upload.selector.map py.casefold) (upload.kind, record.fileId)
  match upload.kind with
  | .idx =>
      let indexes ← keep (UploadRecord.same py) (metadataError "invalid_sparse_pair") m.indexes record.fileId upload
      .ok { m with selectors := selectors, indexes := indexes }
  | .data =>
      let byId ← keep (FileRecord.same py) (metadataError "file_identity_conflict") m.byId record.fileId record
      let records := if (get m.byId record.fileId).isNone then m.records ++ [record] else m.records
      .ok { m with selectors := selectors, byId := byId, records := records }

/-- The second pass: the indexes that are left, the counts, and the files so far. -/
structure Pairing where
  indexes : List (Text × UploadRecord)
  sparseCount : Nat
  sizeMismatchCount : Nat
  paired : List FileRecord

/-- The index belongs to the file. -/
def fits (py : Python) (record indexRecord : FileRecord) : Bool :=
  indexRecord.originalPath == record.originalPath ++ ascii ".idx" && indexRecord.fileSize == record.fileSize &&
    indexRecord.uploadedSize == record.uploadedSize && sameJson py indexRecord.identity record.identity

/-- One file of the second pass. -/
def pairRecord (py : Python) (p : Pairing) (record : FileRecord) : Except Raised Pairing :=
  match get p.indexes record.fileId with
  | none =>
      -- The size was observed before the collection: a difference is counted only.
      .ok { p with sizeMismatchCount := p.sizeMismatchCount + if record.fileSize ≠ record.uploadedSize then 1 else 0
                   paired := p.paired ++ [record] }
  | some index => do
      refuse (decide (record.fileSize < record.uploadedSize) || decide (index.file.fileSize < index.file.uploadedSize))
        "invalid_file_size"
      refuse (!fits py record index.file) "invalid_sparse_pair"
      .ok { indexes := pop p.indexes record.fileId, sparseCount := p.sparseCount + 1
            sizeMismatchCount := p.sizeMismatchCount
            paired := p.paired ++ [{ record with indexSelector := some index.selector }] }

/-- `_deduplicated_uploads`. -/
def deduplicatedUploads (py : Python) (clientId flowId : Text) (rows : List (List (Text × Json))) :
    Except Raised FileInventory := do
  let m ← rows.foldlM (mergeRow py clientId flowId) ⟨[], [], [], []⟩
  let p ← m.records.foldlM (pairRecord py) ⟨m.indexes, 0, 0, []⟩
  refuse (!p.indexes.isEmpty) "invalid_sparse_pair"
  .ok ⟨p.paired, p.sparseCount, p.sizeMismatchCount⟩

/-! ## The first pass -/

section Merging

variable {py : Python} {clientId flowId : Text} {u v : UploadRecord} {us : List UploadRecord} {m m' : Merge}
  {row : List (Text × Json)} {rows : List (List (Text × Json))}

theorem FileRecord.same_iff {r s : FileRecord} : r.same py s = true ↔ r.view py = s.view py := decide_eq_true_iff

theorem UploadRecord.same_iff :
    u.same py v = true ↔ u.kind = v.kind ∧ u.file.view py = v.file.view py ∧ u.selector = v.selector := by
  rw [UploadRecord.same, Bool.and_eq_true, Bool.and_eq_true, decide_eq_true_iff, decide_eq_true_iff,
    FileRecord.same_iff, and_assoc]

theorem FileRecord.same_equivalence (py : Python) : Equivalence fun r s => FileRecord.same py r s = true where
  refl _ := FileRecord.same_iff.mpr rfl
  symm h := FileRecord.same_iff.mpr (FileRecord.same_iff.mp h).symm
  trans h h' := FileRecord.same_iff.mpr ((FileRecord.same_iff.mp h).trans (FileRecord.same_iff.mp h'))

theorem UploadRecord.same_equivalence (py : Python) : Equivalence fun u v => UploadRecord.same py u v = true where
  refl _ := UploadRecord.same_iff.mpr ⟨rfl, rfl, rfl⟩
  symm h :=
    have ⟨hkind, hfile, hselector⟩ := UploadRecord.same_iff.mp h
    UploadRecord.same_iff.mpr ⟨hkind.symm, hfile.symm, hselector.symm⟩
  trans h h' :=
    have ⟨hkind, hfile, hselector⟩ := UploadRecord.same_iff.mp h
    have ⟨hkind', hfile', hselector'⟩ := UploadRecord.same_iff.mp h'
    UploadRecord.same_iff.mpr ⟨hkind.trans hkind', hfile.trans hfile', hselector.trans hselector'⟩

theorem eq_equivalence {γ : Type} [DecidableEq γ] : Equivalence fun v w : γ => decide (v = w) = true where
  refl _ := decide_eq_true rfl
  symm h := decide_eq_true (of_decide_eq_true h).symm
  trans h h' := decide_eq_true ((of_decide_eq_true h).trans (of_decide_eq_true h'))

/-- What an upload is to each of the dictionaries. -/
def selectorItem (py : Python) (u : UploadRecord) : List Text × (Kind × Text) :=
  (u.selector.map py.casefold, (u.kind, u.file.fileId))

def indexItem (u : UploadRecord) : Option (Text × UploadRecord) :=
  if u.kind = .idx then some (u.file.fileId, u) else none

def dataItem (u : UploadRecord) : Option (Text × FileRecord) :=
  if u.kind = .data then some (u.file.fileId, u.file) else none

/-- What any two uploads have to do with each other. -/
structure Compatible (py : Python) (u v : UploadRecord) : Prop where
  selector : u.selector.map py.casefold = v.selector.map py.casefold →
    (u.kind, u.file.fileId) = (v.kind, v.file.fileId)
  index : u.kind = .idx → v.kind = .idx → u.file.fileId = v.file.fileId → u.same py v = true
  data : u.kind = .data → v.kind = .data → u.file.fileId = v.file.fileId → u.file.same py v.file = true

def Consistent (py : Python) (us : List UploadRecord) : Prop := ∀ u ∈ us, ∀ v ∈ us, Compatible py u v

theorem mem_indexes {a : Text × UploadRecord} :
    a ∈ us.filterMap indexItem ↔ a.2 ∈ us ∧ a.2.kind = .idx ∧ a.1 = a.2.file.fileId := by
  obtain ⟨id, w⟩ := a
  rw [List.mem_filterMap]
  constructor
  · rintro ⟨u, hu, hitem⟩
    unfold indexItem at hitem
    split at hitem
    next hkind =>
      obtain ⟨rfl, rfl⟩ := Prod.mk.inj (Option.some.inj hitem)
      exact ⟨hu, hkind, rfl⟩
    next => exact absurd hitem nofun
  · rintro ⟨hw, hkind, hid⟩
    refine ⟨w, hw, ?_⟩
    rw [indexItem, if_pos hkind, ← hid]

theorem mem_data {a : Text × FileRecord} :
    a ∈ us.filterMap dataItem ↔ ∃ u ∈ us, u.kind = .data ∧ a = (u.file.fileId, u.file) := by
  rw [List.mem_filterMap]
  constructor
  · rintro ⟨u, hu, hitem⟩
    unfold dataItem at hitem
    split at hitem
    next hkind => exact ⟨u, hu, hkind, (Option.some.inj hitem).symm⟩
    next => exact absurd hitem nofun
  · rintro ⟨u, hu, hkind, rfl⟩
    exact ⟨u, hu, if_pos hkind⟩

theorem Consistent.selectors (h : Consistent py us) : Agree (fun v w => decide (v = w)) (us.map (selectorItem py)) := by
  intro a ha b hb hkey
  obtain ⟨u, hu, rfl⟩ := List.mem_map.mp ha
  obtain ⟨v, hv, rfl⟩ := List.mem_map.mp hb
  exact decide_eq_true ((h u hu v hv).selector hkey)

theorem Consistent.indexes (h : Consistent py us) : Agree (UploadRecord.same py) (us.filterMap indexItem) := by
  intro a ha b hb hkey
  obtain ⟨hu, hukind, hid⟩ := mem_indexes.mp ha
  obtain ⟨hv, hvkind, hid'⟩ := mem_indexes.mp hb
  exact (h _ hu _ hv).index hukind hvkind (hid.symm.trans (hkey.trans hid'))

theorem Consistent.data (h : Consistent py us) : Agree (FileRecord.same py) (us.filterMap dataItem) := by
  intro a ha b hb hkey
  obtain ⟨u, hu, hukind, rfl⟩ := mem_data.mp ha
  obtain ⟨v, hv, hvkind, rfl⟩ := mem_data.mp hb
  exact (h u hu v hv).data hukind hvkind hkey

theorem Compatible.refl (py : Python) (u : UploadRecord) : Compatible py u u where
  selector _ := rfl
  index _ _ _ := (UploadRecord.same_equivalence py).refl u
  data _ _ _ := (FileRecord.same_equivalence py).refl u.file

theorem Compatible.symm (h : Compatible py u v) : Compatible py v u where
  selector hkey := (h.selector hkey.symm).symm
  index hv hu hid := (UploadRecord.same_equivalence py).symm (h.index hu hv hid.symm)
  data hv hu hid := (FileRecord.same_equivalence py).symm (h.data hu hv hid.symm)

theorem Consistent.concat (h : Consistent py us) (hu : ∀ v ∈ us, Compatible py v u) : Consistent py (us ++ [u]) := by
  intro v hv w hw
  rcases List.mem_append.mp hv with hv | hv <;> rcases List.mem_append.mp hw with hw | hw
  · exact h v hv w hw
  · exact List.mem_singleton.mp hw ▸ hu v hv
  · exact List.mem_singleton.mp hv ▸ (hu w hw).symm
  · exact List.mem_singleton.mp hv ▸ List.mem_singleton.mp hw ▸ Compatible.refl py u

/-- What the first pass has made of the uploads. -/
structure Merged (py : Python) (us : List UploadRecord) (m : Merge) : Prop where
  selectors : Holds m.selectors (us.map (selectorItem py))
  indexes : Holds m.indexes (us.filterMap indexItem)
  byId : Holds m.byId (us.filterMap dataItem)
  records : m.records = m.byId.map Prod.snd
  consistent : Consistent py us

theorem Merged.nil (py : Python) : Merged py [] ⟨[], [], [], []⟩ where
  selectors := .nil
  indexes := .nil
  byId := .nil
  records := rfl
  consistent := nofun

theorem indexes_concat (us : List UploadRecord) (u : UploadRecord) :
    (us ++ [u]).filterMap indexItem = us.filterMap indexItem ++ if u.kind = .idx then [(u.file.fileId, u)] else [] := by
  rw [List.filterMap_append]
  by_cases hkind : u.kind = .idx <;> simp [indexItem, hkind]

theorem data_concat (us : List UploadRecord) (u : UploadRecord) :
    (us ++ [u]).filterMap dataItem = us.filterMap dataItem ++ if u.kind = .data then [(u.file.fileId, u.file)] else [] := by
  rw [List.filterMap_append]
  by_cases hkind : u.kind = .data <;> simp [dataItem, hkind]

/-- **A row that is merged** was read, and the dictionaries hold it too. -/
theorem Merged.step (h : Merged py us m) (hm : mergeRow py clientId flowId m row = .ok m') :
    ∃ u, uploadRecord clientId flowId row = .ok u ∧ Merged py (us ++ [u]) m' := by
  obtain ⟨u, hu, hm⟩ := bind_ok hm
  obtain ⟨selectors, hselectors, hm⟩ := bind_ok hm
  refine ⟨u, hu, ?_⟩
  have hselector : ∀ v ∈ us, v.selector.map py.casefold = u.selector.map py.casefold →
      (v.kind, v.file.fileId) = (u.kind, u.file.fileId) := fun v hv hkey =>
    of_decide_eq_true ((keep_iff eq_equivalence h.selectors h.consistent.selectors).mp ⟨_, hselectors⟩ _
      (List.mem_map_of_mem hv) hkey)
  have hheld : Holds selectors ((us ++ [u]).map (selectorItem py)) := by
    rw [List.map_append]
    exact h.selectors.step hselectors
  cases hkind : u.kind with
  | idx =>
      rw [hkind] at hm
      obtain ⟨indexes, hindexes, hm⟩ := bind_ok hm
      obtain rfl := Except.ok.inj hm
      have hsame := (keep_iff (UploadRecord.same_equivalence py) h.indexes h.consistent.indexes).mp ⟨_, hindexes⟩
      refine ⟨hheld, ?_, ?_, h.records, h.consistent.concat fun v hv => ⟨hselector v hv, ?_, ?_⟩⟩
      · rw [indexes_concat, if_pos hkind]
        exact h.indexes.step hindexes
      · have hdata : ¬ u.kind = .data := hkind ▸ nofun
        rw [data_concat, if_neg hdata, List.append_nil]
        exact h.byId
      · exact fun hv' _ hid => hsame (v.file.fileId, v) (mem_indexes.mpr ⟨hv, hv', rfl⟩) hid
      · exact fun _ hdata _ => absurd (hkind.symm.trans hdata) nofun
  | data =>
      rw [hkind] at hm
      obtain ⟨byId, hbyId, hm⟩ := bind_ok hm
      obtain rfl := Except.ok.inj hm
      have hsame := (keep_iff (FileRecord.same_equivalence py) h.byId h.consistent.data).mp ⟨_, hbyId⟩
      refine ⟨hheld, ?_, ?_, ?_, h.consistent.concat fun v hv => ⟨hselector v hv, ?_, ?_⟩⟩
      · have hidx : ¬ u.kind = .idx := hkind ▸ nofun
        rw [indexes_concat, if_neg hidx, List.append_nil]
        exact h.indexes
      · rw [data_concat, if_pos hkind]
        exact h.byId.step hbyId
      · show (if (get m.byId u.file.fileId).isNone then m.records ++ [u.file] else m.records) = byId.map Prod.snd
        rw [keep_eq hbyId, h.records]
        by_cases hnew : (get m.byId u.file.fileId).isNone = true
        · rw [if_pos hnew, if_pos hnew, List.map_append]
          rfl
        · rw [if_neg hnew, if_neg hnew]
      · exact fun _ hidx _ => absurd (hkind.symm.trans hidx) nofun
      · exact fun hv' _ hid => hsame (v.file.fileId, v.file) (mem_data.mpr ⟨v, hv, hv', rfl⟩) hid

/-- **A row that agrees with the uploads so far** is merged. -/
theorem Merged.progress (h : Merged py us m) (hu : uploadRecord clientId flowId row = .ok u)
    (hcompatible : ∀ v ∈ us, Compatible py v u) : ∃ m', mergeRow py clientId flowId m row = .ok m' := by
  have hselector : ∀ a ∈ us.map (selectorItem py), a.1 = u.selector.map py.casefold →
      decide (a.2 = (u.kind, u.file.fileId)) = true := by
    intro a ha hkey
    obtain ⟨v, hv, rfl⟩ := List.mem_map.mp ha
    exact decide_eq_true ((hcompatible v hv).selector hkey)
  obtain ⟨selectors, hselectors⟩ := (keep_iff eq_equivalence h.selectors h.consistent.selectors).mpr hselector
  unfold mergeRow
  rw [hu, ok_bind]
  dsimp only
  rw [hselectors, ok_bind]
  cases hkind : u.kind with
  | idx =>
      have hsame : ∀ a ∈ us.filterMap indexItem, a.1 = u.file.fileId → a.2.same py u = true := by
        intro a ha hkey
        obtain ⟨hv, hvkind, hid⟩ := mem_indexes.mp ha
        exact (hcompatible _ hv).index hvkind hkind (hid.symm.trans hkey)
      obtain ⟨indexes, hindexes⟩ :=
        (keep_iff (UploadRecord.same_equivalence py) h.indexes h.consistent.indexes).mpr hsame
      dsimp only
      rw [hindexes]
      exact ⟨_, rfl⟩
  | data =>
      have hsame : ∀ a ∈ us.filterMap dataItem, a.1 = u.file.fileId → a.2.same py u.file = true := by
        intro a ha hkey
        obtain ⟨v, hv, hvkind, rfl⟩ := mem_data.mp ha
        exact (hcompatible v hv).data hvkind hkind hkey
      obtain ⟨byId, hbyId⟩ := (keep_iff (FileRecord.same_equivalence py) h.byId h.consistent.data).mpr hsame
      dsimp only
      rw [hbyId]
      exact ⟨_, rfl⟩

/-! The whole pass. -/

/-- The rows are read as these uploads. -/
def Read (clientId flowId : Text) (rows : List (List (Text × Json))) (us : List UploadRecord) : Prop :=
  List.Forall₂ (fun row u => uploadRecord clientId flowId row = .ok u) rows us

theorem merge_run (h : Merged py us m) (hm : rows.foldlM (mergeRow py clientId flowId) m = .ok m') :
    ∃ vs, Read clientId flowId rows vs ∧ Merged py (us ++ vs) m' := by
  induction rows generalizing us m with
  | nil =>
      obtain rfl := Except.ok.inj hm
      exact ⟨[], .nil, (List.append_nil us).symm ▸ h⟩
  | cons row rows ih =>
      rw [List.foldlM_cons] at hm
      obtain ⟨m₁, hrow, hm⟩ := bind_ok hm
      obtain ⟨u, hu, h₁⟩ := h.step hrow
      obtain ⟨vs, hread, hmerged⟩ := ih h₁ hm
      rw [List.append_assoc] at hmerged
      exact ⟨u :: vs, .cons hu hread, hmerged⟩

theorem merge_progress {vs : List UploadRecord} (h : Merged py us m) (hread : Read clientId flowId rows vs)
    (hconsistent : Consistent py (us ++ vs)) : ∃ m', rows.foldlM (mergeRow py clientId flowId) m = .ok m' := by
  induction hread generalizing us m with
  | nil => exact ⟨m, rfl⟩
  | @cons row u rows vs hu hread ih =>
      have hcompatible : ∀ v ∈ us, Compatible py v u := fun v hv =>
        hconsistent v (List.mem_append_left _ hv) u (List.mem_append_right _ List.mem_cons_self)
      obtain ⟨m₁, hrow⟩ := h.progress hu hcompatible
      obtain ⟨u', hu', h₁⟩ := h.step hrow
      obtain rfl := Except.ok.inj (hu.symm.trans hu')
      rw [List.foldlM_cons, hrow]
      exact ih h₁ (by rw [List.append_assoc]; exact hconsistent)

/-- **The first pass goes through** exactly when all rows are read and any two uploads
    are compatible. -/
theorem merge_iff : (∃ m, rows.foldlM (mergeRow py clientId flowId) ⟨[], [], [], []⟩ = .ok m) ↔
    ∃ us, Read clientId flowId rows us ∧ Consistent py us := by
  constructor
  · rintro ⟨m, hm⟩
    obtain ⟨us, hread, hmerged⟩ := merge_run (Merged.nil py) hm
    exact ⟨us, hread, hmerged.consistent⟩
  · rintro ⟨us, hread, hconsistent⟩
    exact merge_progress (Merged.nil py) hread hconsistent

end Merging

/-! ## The second pass -/

section Pairings

variable {py : Python} {p p' : Pairing} {r : FileRecord} {records : List FileRecord}
  {indexes : List (Text × UploadRecord)}

/-- A file with its index. -/
structure Pairs (py : Python) (r : FileRecord) (index : UploadRecord) : Prop where
  stored : r.uploadedSize ≤ r.fileSize
  indexStored : index.file.uploadedSize ≤ index.file.fileSize
  fitting : fits py r index.file = true

/-- The file as it is returned. -/
def attach (indexes : List (Text × UploadRecord)) (r : FileRecord) : FileRecord :=
  match get indexes r.fileId with
  | none => r
  | some index => { r with indexSelector := some index.selector }

def isSparse (indexes : List (Text × UploadRecord)) (r : FileRecord) : Bool := (get indexes r.fileId).isSome

def isDoubtful (indexes : List (Text × UploadRecord)) (r : FileRecord) : Bool :=
  (get indexes r.fileId).isNone && decide (r.fileSize ≠ r.uploadedSize)

/-- What a file that is paired leaves. -/
def Pairing.after (p : Pairing) (r : FileRecord) : Pairing where
  indexes := pop p.indexes r.fileId
  sparseCount := p.sparseCount + if isSparse p.indexes r then 1 else 0
  sizeMismatchCount := p.sizeMismatchCount + if isDoubtful p.indexes r then 1 else 0
  paired := p.paired ++ [attach p.indexes r]

theorem refuse_iff {condition : Bool} {reason : String} {x : Unit} :
    refuse condition reason = .ok x ↔ condition = false := by
  cases condition <;> simp [refuse]

theorem pairRecord_iff : pairRecord py p r = .ok p' ↔
    (∀ index, get p.indexes r.fileId = some index → Pairs py r index) ∧ p' = p.after r := by
  unfold pairRecord Pairing.after attach isSparse isDoubtful
  cases hindex : get p.indexes r.fileId with
  | none =>
      rw [pop_new hindex]
      simp only [Option.isSome_none, Option.isNone_none, Bool.true_and, decide_eq_true_eq, Bool.false_eq_true, if_false,
        Nat.add_zero]
      exact ⟨fun h => ⟨nofun, (Except.ok.inj h).symm⟩, fun ⟨_, h⟩ => congrArg Except.ok h.symm⟩
  | some index =>
      dsimp only
      constructor
      · intro h
        obtain ⟨_, hsizes, h⟩ := bind_ok h
        obtain ⟨_, hfits, h⟩ := bind_ok h
        obtain rfl := Except.ok.inj h
        have hsizes := refuse_iff.mp hsizes
        have hfits := refuse_iff.mp hfits
        simp only [Bool.or_eq_false_iff, decide_eq_false_iff_not, Int.not_lt] at hsizes
        refine ⟨fun i hi => ?_, rfl⟩
        obtain rfl := Option.some.inj hi
        exact ⟨hsizes.1, hsizes.2, by simpa using hfits⟩
      · rintro ⟨hpairs, rfl⟩
        have hpair := hpairs index rfl
        have hsizes : (decide (r.fileSize < r.uploadedSize) || decide (index.file.fileSize < index.file.uploadedSize)) = false := by
          simp only [Bool.or_eq_false_iff, decide_eq_false_iff_not, Int.not_lt]
          exact ⟨hpair.stored, hpair.indexStored⟩
        rw [(refuse_iff (x := ())).mpr hsizes, ok_bind, (refuse_iff (x := ())).mpr (by rw [hpair.fitting]; rfl), ok_bind]
        rfl

/-- **The second pass** attaches each index to its file, and leaves the others. -/
theorem pairing_iff (hnodup : (records.map FileRecord.fileId).Nodup) :
    records.foldlM (pairRecord py) p = .ok p' ↔
      (∀ r ∈ records, ∀ index, get p.indexes r.fileId = some index → Pairs py r index) ∧
      p' = { indexes := p.indexes.filter fun f => f.1 ∉ records.map FileRecord.fileId
             sparseCount := p.sparseCount + records.countP (isSparse p.indexes)
             sizeMismatchCount := p.sizeMismatchCount + records.countP (isDoubtful p.indexes)
             paired := p.paired ++ records.map (attach p.indexes) } := by
  induction records generalizing p with
  | nil =>
      have hall : p.indexes.filter (fun f => f.1 ∉ ([] : List FileRecord).map FileRecord.fileId) = p.indexes :=
        List.filter_eq_self.mpr fun _ _ => rfl
      rw [hall, List.map_nil, List.append_nil]
      exact ⟨fun h => ⟨nofun, (Except.ok.inj h).symm⟩, fun ⟨_, h⟩ => congrArg Except.ok h.symm⟩
  | cons r records ih =>
      obtain ⟨hr, hnodup⟩ := List.nodup_cons.mp hnodup
      -- The files that follow find the indexes that they found before.
      have hsame : ∀ s ∈ records, get (pop p.indexes r.fileId) s.fileId = get p.indexes s.fileId := fun s hs =>
        get_pop fun hid => hr (hid ▸ List.mem_map_of_mem hs)
      have hsparse : records.countP (isSparse (pop p.indexes r.fileId)) = records.countP (isSparse p.indexes) :=
        List.countP_congr fun s hs => by rw [isSparse, isSparse, hsame s hs]
      have hdoubtful : records.countP (isDoubtful (pop p.indexes r.fileId)) = records.countP (isDoubtful p.indexes) :=
        List.countP_congr fun s hs => by rw [isDoubtful, isDoubtful, hsame s hs]
      have hattach : records.map (attach (pop p.indexes r.fileId)) = records.map (attach p.indexes) :=
        List.map_congr_left fun s hs => by rw [attach, attach, hsame s hs]
      have hleft : (pop p.indexes r.fileId).filter (fun f => f.1 ∉ records.map FileRecord.fileId) =
          p.indexes.filter fun f => f.1 ∉ (r :: records).map FileRecord.fileId := by
        rw [pop, List.filter_filter]
        refine List.filter_congr fun f _ => ?_
        rw [List.map_cons, ← Bool.decide_and]
        exact decide_eq_decide.mpr (by rw [List.mem_cons, not_or, and_comm])
      rw [List.foldlM_cons, List.forall_mem_cons]
      constructor
      · intro h
        obtain ⟨p₁, hstep, h⟩ := bind_ok h
        obtain ⟨hpairs, rfl⟩ := pairRecord_iff.mp hstep
        obtain ⟨hrest, rfl⟩ := (ih hnodup).mp h
        refine ⟨⟨hpairs, fun s hs index hindex => hrest s hs index ((hsame s hs).trans hindex)⟩, ?_⟩
        simp only [Pairing.after, hsparse, hdoubtful, hattach, hleft, List.countP_cons, List.map_cons,
          List.append_assoc, List.singleton_append, Pairing.mk.injEq, true_and, and_true]
        omega
      · rintro ⟨⟨hpairs, hrest⟩, rfl⟩
        rw [pairRecord_iff.mpr ⟨hpairs, rfl⟩, ok_bind]
        refine (ih hnodup).mpr ⟨fun s hs index hindex => hrest s hs index ((hsame s hs).symm.trans hindex), ?_⟩
        simp only [Pairing.after, hsparse, hdoubtful, hattach, hleft, List.countP_cons, List.map_cons,
          List.append_assoc, List.singleton_append, Pairing.mk.injEq, true_and, and_true]
        omega

end Pairings

/-! ## The uploads of the rows -/

section Uploads

variable {py : Python} {clientId flowId : Text} {u : UploadRecord} {us us' : List UploadRecord}
  {row : List (Text × Json)} {rows rows' : List (List (Text × Json))}

/-- No file has an index yet, and that of a data row is selected by its components. -/
theorem uploadRecord_shape (h : uploadRecord clientId flowId row = .ok u) :
    u.file.indexSelector = none ∧ (u.kind = .data → u.selector = u.file.components) := by
  obtain ⟨rawType, _, h⟩ := bind_ok h
  obtain ⟨_, _, h⟩ := bind_ok h
  obtain ⟨nestedType, _, h⟩ := bind_ok h
  obtain ⟨_, _, h⟩ := bind_ok h
  obtain ⟨components, _, h⟩ := bind_ok h
  obtain ⟨_, _, h⟩ := bind_ok h
  obtain ⟨accessor, _, h⟩ := bind_ok h
  obtain ⟨raw, _, h⟩ := bind_ok h
  obtain ⟨originalPath, _, h⟩ := bind_ok h
  obtain ⟨fileSize, _, h⟩ := bind_ok h
  obtain ⟨uploadedSize, _, h⟩ := bind_ok h
  obtain rfl := Except.ok.inj h
  refine ⟨rfl, fun hkind => if_neg ?_⟩
  exact fun hidx => absurd (hkind.symm.trans hidx) nofun

/-- The upload is one of the rows. -/
def Seen (clientId flowId : Text) (rows : List (List (Text × Json))) (u : UploadRecord) : Prop :=
  ∃ row ∈ rows, uploadRecord clientId flowId row = .ok u

theorem Read.mem (h : Read clientId flowId rows us) : u ∈ us ↔ Seen clientId flowId rows u := by
  induction h with
  | nil => exact ⟨fun hu => absurd hu List.not_mem_nil, fun ⟨_, hrow, _⟩ => absurd hrow List.not_mem_nil⟩
  | @cons row v rows us hv h ih =>
      rw [List.mem_cons, ih]
      constructor
      · rintro (rfl | ⟨row', hrow', hu⟩)
        · exact ⟨row, List.mem_cons_self, hv⟩
        · exact ⟨row', List.mem_cons_of_mem _ hrow', hu⟩
      · rintro ⟨row', hrow', hu⟩
        rcases List.mem_cons.mp hrow' with rfl | hrow'
        · exact .inl (Except.ok.inj (hu.symm.trans hv))
        · exact .inr ⟨row', hrow', hu⟩

theorem read_of (h : ∀ row ∈ rows, ∃ u, uploadRecord clientId flowId row = .ok u) :
    ∃ us, Read clientId flowId rows us := by
  induction rows with
  | nil => exact ⟨[], .nil⟩
  | cons row rows ih =>
      obtain ⟨u, hu⟩ := h row List.mem_cons_self
      obtain ⟨us, hus⟩ := ih fun row hrow => h row (List.mem_cons_of_mem _ hrow)
      exact ⟨u :: us, .cons hu hus⟩

theorem Read.of_row (h : Read clientId flowId rows us) (hrow : row ∈ rows) :
    ∃ u, uploadRecord clientId flowId row = .ok u := by
  induction h with
  | nil => exact absurd hrow List.not_mem_nil
  | @cons row' v rows us hv h ih =>
      rcases List.mem_cons.mp hrow with rfl | hrow
      · exact ⟨v, hv⟩
      · exact ih hrow

/-- **The same rows** are the same uploads. -/
theorem Read.same (h : Read clientId flowId rows us) (hrows : SameMembers rows rows') :
    ∃ us', Read clientId flowId rows' us' ∧ SameMembers us us' := by
  obtain ⟨us', hus'⟩ := read_of fun row hrow => h.of_row ((hrows row).mpr hrow)
  refine ⟨us', hus', fun u => ?_⟩
  rw [h.mem, hus'.mem]
  exact ⟨fun ⟨row, hrow, hu⟩ => ⟨row, (hrows row).mp hrow, hu⟩, fun ⟨row, hrow, hu⟩ => ⟨row, (hrows row).mpr hrow, hu⟩⟩

/-- The identifier of the file of a data row. -/
def dataId (clientId flowId : Text) (row : List (Text × Json)) : Option Text :=
  match uploadRecord clientId flowId row with
  | .ok u => (dataItem u).map Prod.fst
  | .error _ => none

theorem Read.dataIds (h : Read clientId flowId rows us) :
    (us.filterMap dataItem).map Prod.fst = rows.filterMap (dataId clientId flowId) := by
  rw [List.map_filterMap]
  induction h with
  | nil => rfl
  | @cons row u rows us hu h ih =>
      have hid : dataId clientId flowId row = (dataItem u).map Prod.fst := by rw [dataId, hu]
      rw [List.filterMap_cons, List.filterMap_cons, hid, ih]

end Uploads

/-! ## The inventory -/

section Inventory

variable {py : Python} {clientId flowId : Text} {u v i j : UploadRecord} {us us' : List UploadRecord}
  {r s : FileRecord} {m m' : Merge} {rows rows' : List (List (Text × Json))} {inv inv' : FileInventory}

/-- What the first pass holds of the files. -/
theorem Merged.mem_records (h : Merged py us m) (hr : r ∈ m.records) : ∃ u ∈ us, u.kind = .data ∧ r = u.file := by
  rw [h.records] at hr
  obtain ⟨⟨id, r'⟩, hmem, rfl⟩ := List.mem_map.mp hr
  obtain ⟨u, hu, hkind, heq⟩ := mem_data.mp (lookup_mem (h.byId.get_mem hmem))
  exact ⟨u, hu, hkind, (Prod.mk.inj heq).2⟩

theorem Merged.record_of (h : Merged py us m) (hu : u ∈ us) (hkind : u.kind = .data) :
    ∃ r ∈ m.records, r.view py = u.file.view py := by
  have hitem := mem_data.mpr ⟨u, hu, hkind, rfl⟩
  obtain ⟨r, hr⟩ := exists_lookup hitem
  have hsame := h.consistent.data _ (lookup_mem hr) _ hitem rfl
  rw [← h.byId.lookup] at hr
  refine ⟨r, ?_, FileRecord.same_iff.mp hsame⟩
  rw [h.records]
  exact List.mem_map.mpr ⟨_, lookup_mem hr, rfl⟩

/-- The files stand in the order of the first rows of each. -/
theorem Merged.ids (h : Merged py us m) :
    m.records.map FileRecord.fileId = firsts ((us.filterMap dataItem).map Prod.fst) := by
  rw [← h.byId.keys, h.records, List.map_map]
  refine List.map_congr_left fun f hf => ?_
  obtain ⟨u, -, -, heq⟩ := mem_data.mp (lookup_mem (h.byId.get_mem hf))
  obtain ⟨hid, hfile⟩ := Prod.mk.inj heq
  show f.2.fileId = f.1
  rw [hid, hfile]

theorem Merged.nodup (h : Merged py us m) : (m.records.map FileRecord.fileId).Nodup := h.ids ▸ firsts_nodup _

theorem Merged.mem_index (h : Merged py us m) {id : Text} (hi : get m.indexes id = some i) :
    i ∈ us ∧ i.kind = .idx ∧ id = i.file.fileId := by
  rw [h.indexes.lookup] at hi
  exact mem_indexes.mp (lookup_mem hi)

theorem Merged.index_of (h : Merged py us m) (hi : i ∈ us) (hkind : i.kind = .idx) :
    ∃ j, get m.indexes i.file.fileId = some j ∧ j.same py i = true := by
  have hitem : (i.file.fileId, i) ∈ us.filterMap indexItem := mem_indexes.mpr ⟨hi, hkind, rfl⟩
  obtain ⟨j, hj⟩ := exists_lookup hitem
  exact ⟨j, (h.indexes.lookup _).trans hj, h.consistent.indexes _ (lookup_mem hj) _ hitem rfl⟩

/-- What makes the uploads an inventory: nothing here depends on their order. -/
structure Accepts (py : Python) (us : List UploadRecord) : Prop where
  consistent : Consistent py us
  indexed : ∀ i ∈ us, i.kind = .idx → ∃ u ∈ us, u.kind = .data ∧ u.file.fileId = i.file.fileId
  pairs : ∀ u ∈ us, ∀ i ∈ us, u.kind = .data → i.kind = .idx → u.file.fileId = i.file.fileId → Pairs py u.file i

theorem Accepts.same (h : Accepts py us) (hmembers : SameMembers us us') : Accepts py us' where
  consistent u hu v hv := h.consistent u ((hmembers u).mpr hu) v ((hmembers v).mpr hv)
  indexed i hi hkind :=
    have ⟨u, hu, hrest⟩ := h.indexed i ((hmembers i).mpr hi) hkind
    ⟨u, (hmembers u).mp hu, hrest⟩
  pairs u hu i hi := h.pairs u ((hmembers u).mpr hu) i ((hmembers i).mpr hi)

/-- Whether file and index fit is seen from what the dataclass compares. -/
theorem Pairs.congr (h : Pairs py r i) (hr : r.view py = s.view py) (hi : i.file.view py = j.file.view py) :
    Pairs py s j := by
  obtain ⟨hstored, hindex, hfits⟩ := h
  simp only [FileRecord.view, FileView.mk.injEq] at hr hi
  obtain ⟨-, hidentity, -, hpath, hsize, huploaded, -, -⟩ := hr
  obtain ⟨-, hidentity', -, hpath', hsize', huploaded', -, -⟩ := hi
  refine ⟨by omega, by omega, ?_⟩
  simp only [fits, sameJson] at hfits ⊢
  rw [← hidentity, ← hidentity', ← hpath, ← hpath', ← hsize, ← hsize', ← huploaded, ← huploaded']
  exact hfits

/-- The inventory of what the first pass has merged. -/
def Merge.inventory (m : Merge) : FileInventory where
  records := m.records.map (attach m.indexes)
  sparseCount := m.records.countP (isSparse m.indexes)
  sizeMismatchCount := m.records.countP (isDoubtful m.indexes)

theorem index_of_same (h : i.same py j = true) : i.file.view py = j.file.view py ∧ i.selector = j.selector :=
  (UploadRecord.same_iff.mp h).2

theorem view_fileId (h : r.view py = s.view py) : r.fileId = s.fileId := congrArg FileView.fileId h

/-- **The two passes** make this inventory of these uploads. -/
theorem deduplicated_iff : deduplicatedUploads py clientId flowId rows = .ok inv ↔
    ∃ us m, Read clientId flowId rows us ∧ rows.foldlM (mergeRow py clientId flowId) ⟨[], [], [], []⟩ = .ok m ∧
      Accepts py us ∧ inv = m.inventory := by
  constructor
  · intro h
    obtain ⟨m, hm, h⟩ := bind_ok h
    obtain ⟨p, hp, h⟩ := bind_ok h
    obtain ⟨_, hleft, h⟩ := bind_ok h
    obtain rfl := Except.ok.inj h
    obtain ⟨us, hread, hmerged⟩ := merge_run (Merged.nil py) hm
    rw [List.nil_append] at hmerged
    obtain ⟨hpairs, rfl⟩ := (pairing_iff hmerged.nodup).mp hp
    have hleft := refuse_iff.mp hleft
    rw [Bool.not_eq_false', List.isEmpty_iff, List.filter_eq_nil_iff] at hleft
    have hindexed : ∀ f ∈ m.indexes, f.1 ∈ m.records.map FileRecord.fileId := fun f hf => by simpa using hleft f hf
    refine ⟨us, m, hread, hm, ⟨hmerged.consistent, ?_, ?_⟩, ?_⟩
    · intro i hi hkind
      obtain ⟨j, hj, -⟩ := hmerged.index_of hi hkind
      obtain ⟨r, hr, hid⟩ := List.mem_map.mp (hindexed _ (lookup_mem hj))
      obtain ⟨u, hu, hdata, rfl⟩ := hmerged.mem_records hr
      exact ⟨u, hu, hdata, hid⟩
    · intro u hu i hi hdata hidx hid
      obtain ⟨r, hr, hview⟩ := hmerged.record_of hu hdata
      obtain ⟨j, hj, hsame⟩ := hmerged.index_of hi hidx
      have hpair := hpairs r hr j (by rw [view_fileId hview, hid]; exact hj)
      exact hpair.congr hview (index_of_same hsame).1
    · simp [Merge.inventory]
  · rintro ⟨us, m, hread, hm, haccepts, rfl⟩
    obtain ⟨us', hread', hmerged⟩ := merge_run (Merged.nil py) hm
    rw [List.nil_append] at hmerged
    have hsame : ∀ u, u ∈ us' ↔ u ∈ us := fun u => hread'.mem.trans hread.mem.symm
    have hpairs : ∀ r ∈ m.records, ∀ index, get m.indexes r.fileId = some index → Pairs py r index := by
      intro r hr index hindex
      obtain ⟨u, hu, hdata, rfl⟩ := hmerged.mem_records hr
      obtain ⟨hi, hidx, hid⟩ := hmerged.mem_index hindex
      exact haccepts.pairs u ((hsame u).mp hu) index ((hsame index).mp hi) hdata hidx hid
    have hleft : m.indexes.filter (fun f => f.1 ∉ m.records.map FileRecord.fileId) = [] := by
      refine List.filter_eq_nil_iff.mpr fun f hf => ?_
      obtain ⟨hi, hidx, hid⟩ := hmerged.mem_index (get_of_mem hmerged.indexes.nodup hf)
      obtain ⟨u, hu, hdata, huid⟩ := haccepts.indexed f.2 ((hsame _).mp hi) hidx
      obtain ⟨r, hr, hview⟩ := hmerged.record_of ((hsame u).mpr hu) hdata
      have hmem : f.1 ∈ m.records.map FileRecord.fileId :=
        List.mem_map.mpr ⟨r, hr, (view_fileId hview).trans (huid.trans hid.symm)⟩
      simpa using hmem
    have hp : m.records.foldlM (pairRecord py) ⟨m.indexes, 0, 0, []⟩ = .ok _ :=
      (pairing_iff hmerged.nodup).mpr ⟨hpairs, rfl⟩
    unfold deduplicatedUploads
    rw [hm, ok_bind, hp, ok_bind, hleft]
    simp [Merge.inventory, refuse, ok_bind]

theorem merged_of (h : deduplicatedUploads py clientId flowId rows = .ok inv) :
    ∃ us m, Read clientId flowId rows us ∧ (Merged py us m ∧ Accepts py us) ∧ inv = m.inventory := by
  obtain ⟨us, m, hread, hm, haccepts, rfl⟩ := deduplicated_iff.mp h
  obtain ⟨us', hread', hmerged⟩ := merge_run (Merged.nil py) hm
  rw [List.nil_append] at hmerged
  exact ⟨us', m, hread', ⟨hmerged, haccepts.same fun u => hread.mem.trans hread'.mem.symm⟩, rfl⟩

/-- **Which rows are accepted** does not depend on their order or number. -/
theorem accepts_iff : (∃ inv, deduplicatedUploads py clientId flowId rows = .ok inv) ↔
    ∃ us, Read clientId flowId rows us ∧ Accepts py us := by
  constructor
  · rintro ⟨inv, h⟩
    obtain ⟨us, m, hread, -, haccepts, -⟩ := deduplicated_iff.mp h
    exact ⟨us, hread, haccepts⟩
  · rintro ⟨us, hread, haccepts⟩
    obtain ⟨m, hm⟩ := merge_iff.mpr ⟨us, hread, haccepts.consistent⟩
    exact ⟨_, deduplicated_iff.mpr ⟨us, m, hread, hm, haccepts, rfl⟩⟩

/-! What is returned. -/

/-- All files of the uploads are as `_upload_record` makes them. -/
def Shaped (us : List UploadRecord) : Prop :=
  ∀ u ∈ us, u.file.indexSelector = none ∧ (u.kind = .data → u.selector = u.file.components)

theorem Read.shaped (h : Read clientId flowId rows us) : Shaped us := fun _ hu =>
  have ⟨_, _, hrow⟩ := h.mem.mp hu
  uploadRecord_shape hrow

/-- Two inventories with the same records, each once, and the same counts. -/
structure FileInventory.Same (py : Python) (inv inv' : FileInventory) : Prop where
  records : (inv.records.map (FileRecord.view py)).Perm (inv'.records.map (FileRecord.view py))
  sparseCount : inv.sparseCount = inv'.sparseCount
  sizeMismatchCount : inv.sizeMismatchCount = inv'.sizeMismatchCount

theorem attach_fileId (indexes : List (Text × UploadRecord)) (r : FileRecord) : (attach indexes r).fileId = r.fileId := by
  unfold attach
  split <;> rfl

theorem attach_view (indexes : List (Text × UploadRecord)) (r : FileRecord) (hr : r.indexSelector = none) :
    (attach indexes r).view py =
      { r.view py with indexSelector := (get indexes r.fileId).map UploadRecord.selector } := by
  unfold attach
  cases get indexes r.fileId with
  | none =>
      show r.view py = { r.view py with indexSelector := none }
      rw [← hr]
      rfl
  | some index => rfl

theorem inventory_ids (m : Merge) : m.inventory.records.map FileRecord.fileId = m.records.map FileRecord.fileId := by
  rw [Merge.inventory, List.map_map]
  exact List.map_congr_left fun r _ => attach_fileId m.indexes r

theorem Merged.inventory_nodup (h : Merged py us m) : (m.inventory.records.map (FileRecord.view py)).Nodup := by
  refine List.Nodup.of_map FileView.fileId ?_
  rw [List.map_map]
  exact (inventory_ids m).symm ▸ h.nodup

/-- A file has the same index, whichever row of it came first. -/
theorem selector_same (h : Merged py us m) (h' : Merged py us' m') (hmembers : SameMembers us us') (id : Text) :
    (get m.indexes id).map UploadRecord.selector = (get m'.indexes id).map UploadRecord.selector := by
  have hitems : SameMembers (us.filterMap indexItem) (us'.filterMap indexItem) := fun a => by
    rw [mem_indexes, mem_indexes, hmembers]
  rw [h.indexes.lookup, h'.indexes.lookup]
  cases hi : get (us.filterMap indexItem) id with
  | some i =>
      obtain ⟨j, hj, hsame⟩ := lookup_same h.consistent.indexes hitems hi
      rw [hj, Option.map_some, Option.map_some, (index_of_same hsame).2]
  | none =>
      cases hj : get (us'.filterMap indexItem) id with
      | none => rfl
      | some j =>
          obtain ⟨i, hi', -⟩ := lookup_same h'.consistent.indexes (fun a => (hitems a).symm) hj
          exact absurd (hi.symm.trans hi') nofun

theorem inventory_sub (h : Merged py us m) (h' : Merged py us' m') (hshaped : Shaped us) (hshaped' : Shaped us')
    (hmembers : SameMembers us us') {view : FileView} (hview : view ∈ m.inventory.records.map (FileRecord.view py)) :
    view ∈ m'.inventory.records.map (FileRecord.view py) := by
  rw [Merge.inventory, List.map_map] at hview ⊢
  obtain ⟨r, hr, rfl⟩ := List.mem_map.mp hview
  obtain ⟨u, hu, hdata, rfl⟩ := h.mem_records hr
  obtain ⟨s, hs, hsame⟩ := h'.record_of ((hmembers u).mp hu) hdata
  obtain ⟨v, hv, -, rfl⟩ := h'.mem_records hs
  refine List.mem_map.mpr ⟨v.file, hs, ?_⟩
  show (attach m'.indexes v.file).view py = (attach m.indexes u.file).view py
  rw [attach_view _ _ (hshaped u hu).1, attach_view _ _ (hshaped' v hv).1, hsame, view_fileId hsame,
    selector_same h h' hmembers]

/-- The counts are those of the records. -/
theorem sparse_eq (h : Merged py us m) (hshaped : Shaped us) : m.inventory.sparseCount =
    (m.inventory.records.map (FileRecord.view py)).countP fun r => r.indexSelector.isSome := by
  rw [Merge.inventory, List.map_map, List.countP_map]
  refine List.countP_congr fun r hr => ?_
  obtain ⟨u, hu, -, rfl⟩ := h.mem_records hr
  show isSparse m.indexes u.file = true ↔ ((attach m.indexes u.file).view py).indexSelector.isSome = true
  rw [attach_view _ _ (hshaped u hu).1, isSparse, Option.isSome_map]

theorem mismatch_eq (h : Merged py us m) (hshaped : Shaped us) : m.inventory.sizeMismatchCount =
    (m.inventory.records.map (FileRecord.view py)).countP fun r =>
      r.indexSelector.isNone && decide (r.fileSize ≠ r.uploadedSize) := by
  rw [Merge.inventory, List.map_map, List.countP_map]
  refine List.countP_congr fun r hr => ?_
  obtain ⟨u, hu, -, rfl⟩ := h.mem_records hr
  show isDoubtful m.indexes u.file = true ↔ (fun v : FileView => v.indexSelector.isNone &&
    decide (v.fileSize ≠ v.uploadedSize)) ((attach m.indexes u.file).view py) = true
  rw [attach_view _ _ (hshaped u hu).1, isDoubtful]
  dsimp only
  rw [Option.isNone_map]
  rfl

theorem inventory_same (h : Merged py us m) (h' : Merged py us' m') (hshaped : Shaped us) (hshaped' : Shaped us')
    (hmembers : SameMembers us us') : m.inventory.Same py m'.inventory := by
  have hrecords : (m.inventory.records.map (FileRecord.view py)).Perm (m'.inventory.records.map (FileRecord.view py)) :=
    (List.perm_ext_iff_of_nodup h.inventory_nodup h'.inventory_nodup).mpr fun _ =>
      ⟨inventory_sub h h' hshaped hshaped' hmembers, inventory_sub h' h hshaped' hshaped fun u => (hmembers u).symm⟩
  refine ⟨hrecords, ?_, ?_⟩
  · rw [sparse_eq h hshaped, sparse_eq h' hshaped']
    exact hrecords.countP_eq _
  · rw [mismatch_eq h hshaped, mismatch_eq h' hshaped']
    exact hrecords.countP_eq _

/-! Nothing is missed or repeated. -/

/-- The file without its index. -/
def FileRecord.unindexed (r : FileRecord) : FileRecord := { r with indexSelector := none }

/-- The selectors that a file can be read by. -/
def FileRecord.selectors (r : FileRecord) : List (List Text) := r.components :: r.indexSelector.toList

/-- What an inventory says of the rows. -/
structure Complete (py : Python) (clientId flowId : Text) (rows : List (List (Text × Json))) (inv : FileInventory) :
    Prop where
  order : inv.records.map FileRecord.fileId = firsts (rows.filterMap (dataId clientId flowId))
  data : ∀ u, Seen clientId flowId rows u → u.kind = .data →
    inv.records.countP (fun r => r.unindexed.same py u.file) = 1
  sound : ∀ r ∈ inv.records, ∃ u, Seen clientId flowId rows u ∧ u.kind = .data ∧ r.unindexed = u.file
  index : ∀ i, Seen clientId flowId rows i → i.kind = .idx →
    inv.records.countP (fun r => r.fileId == i.file.fileId && r.indexSelector == some i.selector) = 1
  indexSound : ∀ r ∈ inv.records, ∀ selector, r.indexSelector = some selector →
    ∃ i, Seen clientId flowId rows i ∧ i.kind = .idx ∧ i.file.fileId = r.fileId ∧ i.selector = selector
  selectors : ((inv.records.flatMap FileRecord.selectors).map (List.map py.casefold)).Nodup
  sparse : inv.sparseCount = inv.records.countP fun r => r.indexSelector.isSome
  mismatch : inv.sizeMismatchCount = inv.records.countP fun r =>
    r.indexSelector.isNone && decide (r.fileSize ≠ r.uploadedSize)

/-- One record of a list has what all that have it share the identifier of. -/
theorem countP_one {records : List FileRecord} {p : FileRecord → Bool}
    (hnodup : (records.map FileRecord.fileId).Nodup) (hr : r ∈ records) (hp : p r = true)
    (hid : ∀ s ∈ records, p s = true → s.fileId = r.fileId) : records.countP p = 1 := by
  have hcount : records.countP p = (records.map FileRecord.fileId).count r.fileId := by
    rw [List.count, List.countP_map]
    refine List.countP_congr fun s hs => ⟨fun h => beq_iff_eq.mpr (hid s hs h), fun h => ?_⟩
    exact List.inj_on_of_nodup_map hnodup hs hr (beq_iff_eq.mp h) ▸ hp
  rw [hcount]
  exact List.count_eq_one_of_mem hnodup (List.mem_map_of_mem hr)

/-- A record of the inventory: the file of a data row, with the index that it has. -/
theorem Merged.mem_inventory (h : Merged py us m) (hshaped : Shaped us) (hr : r ∈ m.inventory.records) :
    ∃ u ∈ us, u.kind = .data ∧ u.file ∈ m.records ∧ r.unindexed = u.file ∧
      r.indexSelector = (get m.indexes u.file.fileId).map UploadRecord.selector := by
  obtain ⟨s, hs, rfl⟩ := List.mem_map.mp hr
  obtain ⟨u, hu, hdata, rfl⟩ := h.mem_records hs
  have hnone := (hshaped u hu).1
  refine ⟨u, hu, hdata, hs, ?_⟩
  unfold attach FileRecord.unindexed
  cases get m.indexes u.file.fileId with
  | none => exact ⟨by rw [← hnone], hnone⟩
  | some i => exact ⟨by rw [← hnone], rfl⟩

/-- A selector of a record is that of a row with its identifier. -/
theorem Merged.selector_of (h : Merged py us m) (hshaped : Shaped us) (hr : r ∈ m.inventory.records)
    {selector : List Text} (hselector : selector ∈ r.selectors) : ∃ u ∈ us, u.selector = selector ∧
      u.file.fileId = r.fileId := by
  obtain ⟨u, hu, hdata, -, hfile, hindex⟩ := h.mem_inventory hshaped hr
  have hid : u.file.fileId = r.fileId := hfile ▸ rfl
  rcases List.mem_cons.mp hselector with rfl | hselector
  · exact ⟨u, hu, ((hshaped u hu).2 hdata).trans (hfile ▸ rfl), hid⟩
  · rw [Option.mem_toList, hindex, Option.map_eq_some_iff] at hselector
    obtain ⟨i, hi, rfl⟩ := hselector
    obtain ⟨hi, -, hsame⟩ := h.mem_index hi
    exact ⟨i, hi, rfl, hsame.symm.trans hid⟩

/-- The keys of the selectors differ: those of one record by what they are of, those of
    two by the record. -/
theorem Merged.selectors_nodup (h : Merged py us m) (hshaped : Shaped us) :
    ((m.inventory.records.flatMap FileRecord.selectors).map (List.map py.casefold)).Nodup := by
  have hids : m.inventory.records.Pairwise fun r s => r.fileId ≠ s.fileId :=
    List.pairwise_map.mp (inventory_ids m ▸ h.nodup : (m.inventory.records.map FileRecord.fileId).Nodup)
  rw [List.map_flatMap, List.nodup_flatMap]
  constructor
  · intro r hr
    obtain ⟨u, hu, hdata, -, hfile, hindex⟩ := h.mem_inventory hshaped hr
    have hcomponents : r.components = u.selector := ((hshaped u hu).2 hdata).symm ▸ hfile ▸ rfl
    unfold FileRecord.selectors
    rw [hindex]
    cases hi : get m.indexes u.file.fileId with
    | none => exact List.nodup_singleton _
    | some i =>
        obtain ⟨hi, hidx, -⟩ := h.mem_index hi
        refine List.nodup_cons.mpr ⟨fun hmem => ?_, List.nodup_singleton _⟩
        rw [hcomponents] at hmem
        have hkinds := (h.consistent u hu i hi).selector (List.mem_singleton.mp hmem)
        exact absurd (hdata.symm.trans ((Prod.mk.inj hkinds).1.trans hidx)) nofun
  · refine hids.imp_of_mem fun {r s} hr hs hne => ?_
    intro key hkey hkey'
    obtain ⟨a, ha, rfl⟩ := List.mem_map.mp hkey
    obtain ⟨b, hb, heq⟩ := List.mem_map.mp hkey'
    obtain ⟨u, hu, rfl, hid⟩ := h.selector_of hshaped hr ha
    obtain ⟨v, hv, rfl, hid'⟩ := h.selector_of hshaped hs hb
    have hsame := (h.consistent u hu v hv).selector heq.symm
    exact hne (hid.symm.trans ((Prod.mk.inj hsame).2.trans hid'))

theorem attach_unindexed (indexes : List (Text × UploadRecord)) (hr : r.indexSelector = none) :
    (attach indexes r).unindexed = r := by
  have hsame : r.unindexed = r := by rw [FileRecord.unindexed, ← hr]
  unfold attach
  cases get indexes r.fileId with
  | none => exact hsame
  | some index => exact hsame

theorem Merged.complete (h : Merged py us m) (hread : Read clientId flowId rows us) (haccepts : Accepts py us) :
    Complete py clientId flowId rows m.inventory := by
  have hshaped := hread.shaped
  have hnodup : (m.inventory.records.map FileRecord.fileId).Nodup := inventory_ids m ▸ h.nodup
  refine ⟨?_, ?_, ?_, ?_, ?_, h.selectors_nodup hshaped, ?_, ?_⟩
  · rw [inventory_ids, h.ids, hread.dataIds]
  · intro u hu hdata
    obtain ⟨s, hs, hview⟩ := h.record_of (hread.mem.mpr hu) hdata
    obtain ⟨v, hv, -, rfl⟩ := h.mem_records hs
    have hr : attach m.indexes v.file ∈ m.inventory.records := List.mem_map_of_mem hs
    refine countP_one hnodup hr ?_ fun t _ hsame => ?_
    · rw [attach_unindexed _ (hshaped v hv).1]
      exact FileRecord.same_iff.mpr hview
    · rw [attach_fileId, view_fileId hview]
      have hfile : t.unindexed.fileId = u.file.fileId := view_fileId (FileRecord.same_iff.mp hsame)
      exact hfile
  · intro r hr
    obtain ⟨u, hu, hdata, -, hfile, -⟩ := h.mem_inventory hshaped hr
    exact ⟨u, hread.mem.mp hu, hdata, hfile⟩
  · intro i hi hidx
    obtain ⟨u, hu, hdata, hid⟩ := haccepts.indexed i (hread.mem.mpr hi) hidx
    obtain ⟨s, hs, hview⟩ := h.record_of hu hdata
    have hsid : s.fileId = i.file.fileId := (view_fileId hview).trans hid
    obtain ⟨j, hj, hsame⟩ := h.index_of (hread.mem.mpr hi) hidx
    have hr : attach m.indexes s ∈ m.inventory.records := List.mem_map_of_mem hs
    have hselector : (attach m.indexes s).indexSelector = some i.selector := by
      rw [attach, hsid, hj, ← (index_of_same hsame).2]
    refine countP_one hnodup hr ?_ fun t _ hboth => ?_
    · rw [attach_fileId, hselector, hsid, beq_self_eq_true, beq_self_eq_true]
      rfl
    · rw [attach_fileId, hsid]
      exact beq_iff_eq.mp (Bool.and_eq_true_iff.mp hboth).1
  · intro r hr selector hselector
    obtain ⟨u, hu, hdata, -, hfile, hindex⟩ := h.mem_inventory hshaped hr
    rw [hindex, Option.map_eq_some_iff] at hselector
    obtain ⟨i, hi, rfl⟩ := hselector
    obtain ⟨hi, hidx, hid⟩ := h.mem_index hi
    exact ⟨i, hread.mem.mp hi, hidx, hid.symm.trans (hfile ▸ rfl), rfl⟩
  · rw [sparse_eq h hshaped, List.countP_map]
    rfl
  · rw [mismatch_eq h hshaped, List.countP_map]
    rfl

/-- What an inventory depends on. -/
structure Lawful (py : Python) (clientId flowId : Text) (rows : List (List (Text × Json))) : Prop where
  accepts : ∀ rows', SameMembers rows rows' → ((∃ inv, deduplicatedUploads py clientId flowId rows = .ok inv) ↔
    ∃ inv, deduplicatedUploads py clientId flowId rows' = .ok inv)
  same : ∀ rows', SameMembers rows rows' → ∀ inv inv', deduplicatedUploads py clientId flowId rows = .ok inv →
    deduplicatedUploads py clientId flowId rows' = .ok inv' → inv.Same py inv'
  complete : ∀ inv, deduplicatedUploads py clientId flowId rows = .ok inv → Complete py clientId flowId rows inv

/-- **The inventory of the rows** does not depend on their order or number, and it
    misses and repeats nothing. -/
theorem inventory_lawful (py : Python) (clientId flowId : Text) (rows : List (List (Text × Json))) :
    Lawful py clientId flowId rows := by
  refine ⟨fun rows' hrows => ?_, fun rows' hrows inv inv' h h' => ?_, fun inv h => ?_⟩
  · rw [accepts_iff, accepts_iff]
    constructor
    · rintro ⟨us, hread, haccepts⟩
      obtain ⟨us', hread', hmembers⟩ := hread.same hrows
      exact ⟨us', hread', haccepts.same hmembers⟩
    · rintro ⟨us, hread, haccepts⟩
      obtain ⟨us', hread', hmembers⟩ := hread.same fun row => (hrows row).symm
      exact ⟨us', hread', haccepts.same hmembers⟩
  · obtain ⟨us, m, hread, hmerged, rfl⟩ := merged_of h
    obtain ⟨us', m', hread', hmerged', rfl⟩ := merged_of h'
    refine inventory_same hmerged.1 hmerged'.1 hread.shaped hread'.shaped fun u => ?_
    rw [hread.mem, hread'.mem]
    exact ⟨fun ⟨row, hrow, hu⟩ => ⟨row, (hrows row).mp hrow, hu⟩, fun ⟨row, hrow, hu⟩ => ⟨row, (hrows row).mpr hrow, hu⟩⟩
  · obtain ⟨us, m, hread, hmerged, rfl⟩ := merged_of h
    exact hmerged.1.complete hread hmerged.2

end Inventory

end FlowFiles
