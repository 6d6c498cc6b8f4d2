import Mathlib
import VeloTransfer.JsonLimitsProofs
import VeloTransfer.HostJournalProofs

/-! # Manifests — the inventory of a source, and its admission

    A manifest lists the files and directories of a source.  On a push it is what
    the scan of the sources returns (`scan`); on a pull it comes with the package
    and is validated (`validatedManifest`).  Both are admitted under the budget of
    the request: a number of entries, bytes of metadata, bytes of content.

    Python's tables of characters are parameters: the composed form and the folded
    case of a text, and the lower case that its regular expressions compare by. -/

namespace Manifest

open CanonicalJson JsonLine BoundedJson JsonDict JsonLimits Sha256 GuestTerminal ExceptRules

def SCHEMA : Text := ascii "velo.transfer.manifest.v1"

structure Unicode where
  nfc : Text → Text
  casefold : Text → Text
  lower : Nat → Nat

/-- The fields of `Budget` that admit a manifest. -/
structure Budget where
  maxFiles : Nat
  maxMetadataBytes : Nat
  maxLogicalBytes : Nat
deriving Repr, DecidableEq

/-! ## Entries -/

/-- `file_identity`. -/
structure FileIdentity where
  device : Nat
  inode : Nat
  size : Nat
  mtimeNs : Int
deriving Repr, DecidableEq

/-- A file; or a directory, without an identity when no source names it. -/
inductive Kind where
  | file (size : Nat) (sha256 : Text) (identity : FileIdentity)
  | directory (identity : Option FileIdentity)
deriving Repr, DecidableEq

structure Entry where
  path : Text
  kind : Kind
deriving Repr, DecidableEq

structure Document where
  evidenceRefs : List Text
  entries : List Entry
deriving Repr, DecidableEq

def FileIdentity.toJson (i : FileIdentity) : Json :=
  .obj [(ascii "device", .int i.device), (ascii "inode", .int i.inode), (ascii "size", .int i.size),
    (ascii "mtime_ns", .int i.mtimeNs)]

def Entry.toJson (e : Entry) : Json :=
  match e.kind with
  | .file size sha256 identity =>
      .obj [(ascii "path", .str e.path), (ascii "type", .str (ascii "file")), (ascii "size", .int size),
        (ascii "sha256", .str sha256), (ascii "identity", identity.toJson)]
  | .directory identity =>
      .obj [(ascii "path", .str e.path), (ascii "type", .str (ascii "directory")),
        (ascii "identity", match identity with | some i => i.toJson | none => .obj [])]

def refsJson (refs : List Text) : Json := .arr (refs.map Json.str)

def Document.toJson (m : Document) : Json :=
  .obj [(ascii "schema", .str SCHEMA), (ascii "evidence_refs", refsJson m.evidenceRefs),
    (ascii "entries", .arr (m.entries.map Entry.toJson))]

def Kind.isDirectory : Kind → Bool
  | .directory _ => true
  | .file .. => false

/-- The nodes that an entry takes in a JSON document. -/
def Kind.nodes : Kind → Nat
  | .file .. => 10
  | .directory (some _) => 8
  | .directory none => 4

/-- The nodes of a manifest. -/
def Document.nodes (m : Document) : Nat :=
  4 + m.evidenceRefs.length + (m.entries.map (fun e => e.kind.nodes)).sum

/-! ## Paths -/

/-- `value.split("/")`. -/
def splitSlash : Text → List Text
  | [] => [[]]
  | c :: cs =>
      if c = 47 then [] :: splitSlash cs
      else match splitSlash cs with
        | part :: parts => (c :: part) :: parts
        | [] => [[c]]

def isLetter (c : Nat) : Bool := (65 ≤ c && c ≤ 90) || (97 ≤ c && c ≤ 122)

/-- The end of a name, or its first dot. -/
def endsName : Text → Bool
  | [] => true
  | c :: _ => c == 46

/-- `_DRIVE`. -/
def hasDrive : Text → Bool
  | c :: d :: _ => isLetter c && d == 58
  | _ => false

/-- The names of `_RESERVED`. -/
def reservedNames : List Text :=
  ["con", "prn", "aux", "nul", "conin$", "conout$", "clock$"].map ascii ++
    (List.range 10).map (fun d => ascii "com" ++ [48 + d]) ++
    (List.range 10).map (fun d => ascii "lpt" ++ [48 + d])

/-- `_RESERVED`, without regard to case. -/
def isReserved (u : Unicode) (part : Text) : Bool :=
  reservedNames.any (fun name =>
    (part.take name.length).map u.lower == name && endsName (part.drop name.length))

/-- `_SHORT_ALIAS`. -/
def isShortAlias (part : Text) : Bool :=
  (List.range 6).any (fun k =>
    (part.take (k + 1)).length == k + 1 && (part.take (k + 1)).all (fun c => c != 46 && c != 47) &&
      match part.drop (k + 1) with
      | 126 :: d :: rest => isDigit d && endsName rest
      | _ => false)

def isBadPart (u : Unicode) (part : Text) : Bool :=
  part == [] || part == ascii "." || part == ascii ".." || u.nfc part != part || part.contains 58 ||
    part.getLast? == some 32 || part.getLast? == some 46 || isReserved u part || isShortAlias part ||
    part.any (fun c => (ascii "<>\"|?*").contains c || c < 32)

/-- `check_relative`. -/
def checkRelative (u : Unicode) (value : Text) : Option String :=
  firstError [
    failsWith (value = [] ∨ value.contains 0 = true ∨ value.contains 92 = true) "invalid_relative_path",
    failsWith (value.head? = some 47 ∨ hasDrive value = true) "invalid_relative_path",
    failsWith ((splitSlash value).any (isBadPart u) = true) "invalid_relative_path"]

/-- The proper prefixes of a path that end at a slash: its parents. -/
def parents (path : Text) : List Text :=
  (List.range path.length).filterMap (fun k =>
    if path.drop k |>.head? |>.any (· == 47) then some (path.take k) else none)

/-- The first error of a check of each member. -/
def firstOf {α : Type} (check : α → Option String) (xs : List α) : Option String :=
  firstError (xs.map check)

/-- `_check_collisions`. -/
def checkCollisions (u : Unicode) (names directories : List Text) : Option String :=
  let folded := names.map u.casefold
  let files := folded.filter (fun f => !(directories.map u.casefold).contains f)
  firstError [
    firstOf (checkRelative u) names,
    failsWith (¬ folded.Nodup) "path_collision",
    failsWith (folded.any (fun f => (parents f).any (fun p => files.contains p)) = true) "path_collision"]

/-! ## Encoding under the limit of digits -/

/-- `canonical_json`; Python writes no integer with more than `digits` digits. -/
def canonicalJson (digits : Nat) (v : Json) : Except String Bytes :=
  if fewDigits digits v = false then .error "ValueError"
  else match dumps v with
    | none => .error "UnicodeEncodeError"
    | some raw => .ok raw

/-- `len(text.encode("utf-8"))`. -/
def encodedLength (s : Text) : Except String Nat :=
  match encodeUtf8 s with
  | none => .error "UnicodeEncodeError"
  | some raw => .ok raw.length

def require (c : Prop) [Decidable c] (code : String) : Except String Unit :=
  if c then .ok () else .error code

def refuse (error : Option String) : Except String Unit :=
  match error with
  | none => .ok ()
  | some code => .error code

/-! ## The scan of a source -/

/-- What the file system shows at a path. -/
inductive Node where
  | file (content : Bytes) (identity : FileIdentity)
  | directory (identity : FileIdentity) (children : List (Text × Node))
  | other

structure Source where
  absolutePath : Text
  relativePath : Text
deriving Repr, DecidableEq

/-- The accumulators of `_scan`. -/
structure Inventory where
  entries : List Entry
  logical : Nat
  metadata : Nat
deriving Repr, DecidableEq

def Inventory.names (s : Inventory) : List Text := s.entries.map Entry.path

section Scan

variable (u : Unicode) (b : Budget) (digits : Nat)

/-- The charge for an entry, and the entry at the end. -/
def Inventory.charge (s : Inventory) (e : Entry) : Except String Inventory := do
  let raw ← canonicalJson digits e.toJson
  let path ← encodedLength e.path
  require (s.metadata + (raw.length + 128 + path) ≤ b.maxMetadataBytes) "metadata_budget_exceeded"
  .ok { s with entries := s.entries ++ [e], metadata := s.metadata + (raw.length + 128 + path) }

/-- The checks at the start of `add`. -/
def Inventory.enter (s : Inventory) (relative : Text) : Except String Unit := do
  require (s.entries.length + 1 ≤ b.maxFiles) "file_count_exceeded"
  refuse (checkRelative u relative)

mutual

/-- `add`. -/
def add (relative : Text) : Node → Inventory → Except String Inventory
  | .directory identity children, s => do
      s.enter u b relative
      let s ← s.charge b digits { path := relative, kind := .directory (some identity) }
      addChildren relative children s
  | .file content identity, s => do
      s.enter u b relative
      require (s.logical + identity.size ≤ b.maxLogicalBytes) "logical_budget_exceeded"
      require (content.length = identity.size) "source_changed"
      let s ← s.charge b digits
        { path := relative, kind := .file identity.size (hexdigest content) identity }
      .ok { s with logical := s.logical + identity.size }
  | .other, s => do
      s.enter u b relative
      .error "unsupported_source_type"

def addChildren (relative : Text) : List (Text × Node) → Inventory → Except String Inventory
  | [], s => .ok s
  | (name, node) :: rest, s => do
      let s ← add (relative ++ 47 :: name) node s
      addChildren relative rest s

end

/-- The sources, in order; `files` is the file system. -/
def addSources (files : Text → Except String Node) : List Source → Inventory → Except String Inventory
  | [], s => .ok s
  | source :: rest, s => do
      refuse (checkRelative u source.relativePath)
      require (source.absolutePath.head? = some 47) "invalid_source_path"
      let node ← files source.absolutePath
      let s ← add u b digits source.relativePath node s
      addSources files rest s

/-- A virtual directory for a parent that is not there. -/
def addParent (parent : Text) (s : Inventory) : Except String Inventory :=
  if s.names.contains parent then .ok s
  else do
    require (s.entries.length + 1 ≤ b.maxFiles) "file_count_exceeded"
    s.charge b digits { path := parent, kind := .directory none }

def addParents : List Text → Inventory → Except String Inventory
  | [], s => .ok s
  | parent :: rest, s => do
      let s ← addParent b digits parent s
      addParents rest s

/-- The charge for the references, before anything is encoded. -/
def chargeRefs : List Text → Nat → Except String Unit
  | [], _ => .ok ()
  | ref :: rest, size => do
      let length ← encodedLength ref
      require (size + (length + 3) ≤ b.maxMetadataBytes) "metadata_budget_exceeded"
      chargeRefs rest (size + (length + 3))

/-- `entries.sort(key=lambda entry: entry["path"])`. -/
def sortEntries (entries : List Entry) : List Entry :=
  entries.insertionSort (fun e f => keyLt f.path e.path = false)

/-- `_scan`. -/
def scan (files : Text → Except String Node) (sources : List Source) (refs : List Text) :
    Except String Document := do
  require (sources ≠ []) "sources_required"
  require (sources.length ≤ b.maxFiles) "file_count_exceeded"
  chargeRefs b refs 32
  let head ← canonicalJson digits
    (.obj [(ascii "schema", .str SCHEMA), (ascii "evidence_refs", refsJson refs)])
  let s ← addSources u b digits files sources { entries := [], logical := 0, metadata := head.length }
  let s ← addParents b digits (s.names.flatMap parents) s
  refuse (checkCollisions u s.names ((s.entries.filter (fun e => e.kind.isDirectory)).map Entry.path))
  let raw ← canonicalJson digits
    (Document.toJson { evidenceRefs := refs, entries := sortEntries s.entries })
  require (raw.length ≤ b.maxMetadataBytes) "metadata_budget_exceeded"
  .ok { evidenceRefs := refs, entries := sortEntries s.entries }

end Scan

/-! ## The manifest of a package -/

section Validate

variable (u : Unicode) (b : Budget) (digits : Nat)

def readNat (v : Json) : Except String Nat :=
  match v with
  | .int i => if 0 ≤ i then .ok i.toNat else .error "invalid_manifest"
  | _ => .error "invalid_manifest"

def readInt (v : Json) : Except String Int :=
  match v with
  | .int i => .ok i
  | _ => .error "invalid_manifest"

def readText (code : String) (v : Json) : Except String Text :=
  match v with
  | .str s => .ok s
  | _ => .error code

/-- The identity of an entry; an empty one is none. -/
def readIdentity (v : Json) : Except String (Option FileIdentity) :=
  match v with
  | .obj [] => .ok none
  | v => do
      let fs ← object ["device", "inode", "size", "mtime_ns"] "invalid_manifest" v
      let device ← readNat (field fs "device")
      let inode ← readNat (field fs "inode")
      let size ← readNat (field fs "size")
      let mtimeNs ← readInt (field fs "mtime_ns")
      .ok (some { device, inode, size, mtimeNs })

/-- A file has an identity, of its size. -/
def readFileEntry (v : Json) : Except String Entry := do
  let fs ← object ["path", "type", "size", "sha256", "identity"] "invalid_manifest" v
  let path ← readText "invalid_relative_path" (field fs "path")
  let type ← readText "invalid_manifest" (field fs "type")
  let size ← readNat (field fs "size")
  let sha256 ← readText "invalid_manifest" (field fs "sha256")
  let identity ← readIdentity (field fs "identity")
  require (type = ascii "file" ∧ isHex sha256 = true) "invalid_manifest"
  match identity with
  | none => .error "invalid_manifest"
  | some i => do
      require (i.size = size) "invalid_manifest"
      .ok { path, kind := .file size sha256 i }

def readDirectoryEntry (v : Json) : Except String Entry := do
  let fs ← object ["path", "type", "identity"] "invalid_manifest" v
  let path ← readText "invalid_relative_path" (field fs "path")
  let type ← readText "invalid_manifest" (field fs "type")
  let identity ← readIdentity (field fs "identity")
  require (type = ascii "directory") "invalid_manifest"
  .ok { path, kind := .directory identity }

/-- One entry of `_validated_manifest`. -/
def readEntry (v : Json) : Except String Entry :=
  match get v "type" with
  | some (.str t) =>
      if t = ascii "file" then readFileEntry v
      else if t = ascii "directory" then readDirectoryEntry v
      else .error "invalid_manifest"
  | _ => .error "invalid_manifest"

/-- The entries, and the bytes of content so far. -/
def readEntries : List Json → Nat → Except String (List Entry)
  | [], _ => .ok []
  | v :: vs, logical => do
      let e ← readEntry v
      refuse (checkRelative u e.path)
      let size := match e.kind with | .file size _ _ => size | .directory _ => 0
      require (logical + size ≤ b.maxLogicalBytes) "logical_budget_exceeded"
      let es ← readEntries vs (logical + size)
      .ok (e :: es)

def readRefs : List Json → Except String (List Text)
  | [] => .ok []
  | v :: vs => do
      let ref ← readText "invalid_manifest" v
      let refs ← readRefs vs
      .ok (ref :: refs)

def readItems (v : Json) : Except String (List Json) :=
  match v with
  | .arr items => .ok items
  | _ => .error "invalid_manifest"

/-- `json.loads`, which reads no integer with more than `digits` digits. -/
def loadManifest (raw : Bytes) : Except String Json :=
  match loads raw with
  | .error _ => .error "invalid_manifest"
  | .ok v => if fewDigits digits v = false then .error "invalid_manifest" else .ok v

/-- `_validated_manifest`: the value that was read, and what it lists. -/
def validatedManifest (raw : Bytes) : Except String (Json × Document) := do
  require (raw.length ≤ b.maxMetadataBytes) "metadata_budget_exceeded"
  let v ← loadManifest digits raw
  let fs ← object ["schema", "evidence_refs", "entries"] "invalid_manifest" v
  let schema ← readText "invalid_manifest" (field fs "schema")
  let items ← readItems (field fs "entries")
  let refItems ← readItems (field fs "evidence_refs")
  let refs ← readRefs refItems
  require (schema = SCHEMA) "invalid_manifest"
  let encoded ← canonicalJson digits v
  require (encoded = raw) "invalid_manifest"
  require (items.length ≤ b.maxFiles) "file_count_exceeded"
  let entries ← readEntries u b items 0
  let names := entries.map Entry.path
  let directories := (entries.filter (fun e => e.kind.isDirectory)).map Entry.path
  require (names.all (fun name => (parents name).all directories.contains) = true) "invalid_manifest"
  refuse (checkCollisions u names directories)
  require (sortEntries entries = entries) "invalid_manifest"
  .ok (v, { evidenceRefs := refs, entries })

end Validate

/-! ## The shape of a manifest -/

/-- A plain value of `count` nodes, nested at most `depth` deep. -/
structure Lists (v : Json) (count depth : Nat) : Prop where
  plain : v.Plain
  nodes : BoundedJson.nodes v = count
  height : BoundedJson.height v ≤ depth

theorem lists_str (s : Text) (d : Nat) : Lists (.str s) 1 d := ⟨trivial, rfl, Nat.zero_le _⟩

theorem lists_int (i : Int) (d : Nat) : Lists (.int i) 1 d := ⟨trivial, rfl, Nat.zero_le _⟩

theorem foldr_max_le {xs : List Nat} {d : Nat} (h : ∀ x ∈ xs, x ≤ d) : xs.foldr max 0 ≤ d := by
  induction xs with
  | nil => exact Nat.zero_le _
  | cons x xs ih =>
      obtain ⟨hx, hxs⟩ := List.forall_mem_cons.mp h
      exact Nat.max_le.mpr ⟨hx, ih hxs⟩

/-- A dictionary with known fields. -/
theorem lists_obj {fs : List (Text × Json)} {keys : List String} (count : String → Nat) {d : Nat}
    (h : hasKeys fs keys = true) (hnodup : (keys.map ascii).Nodup)
    (hfields : ∀ key ∈ keys, Lists (field fs key) (count key) d) :
    Lists (.obj fs) (1 + (keys.map count).sum) (d + 1) := by
  obtain ⟨hdup, hperm⟩ := fields_perm h hnodup
  have hall : ∀ f ∈ fs, f.2.Plain ∧ BoundedJson.height f.2 ≤ d := by
    intro f hf
    obtain ⟨key, hkey, rfl⟩ := List.mem_map.mp (hperm.mem_iff.mpr hf)
    exact ⟨(hfields key hkey).plain, (hfields key hkey).height⟩
  refine { plain := ⟨hdup, (plainFields_iff fs).mpr (fun f hf => (hall f hf).1)⟩, nodes := ?_, height := ?_ }
  · show 1 + nodesFields fs = _
    rw [nodesFields_eq, ← (hperm.map _).sum_nat, List.map_map]
    refine congrArg (1 + List.sum ·) (List.map_congr_left (fun key hkey => (hfields key hkey).nodes))
  · show heightFields fs ≤ _
    rw [heightFields_eq]
    refine foldr_max_le (fun x hx => ?_)
    obtain ⟨f, hf, rfl⟩ := List.mem_map.mp hx
    have := (hall f hf).2
    omega

theorem lists_arr {α : Type} {xs : List Json} {ms : List α} (count : α → Nat) {d : Nat}
    (h : List.Forall₂ (fun x m => Lists x (count m) d) xs ms) :
    Lists (.arr xs) (1 + (ms.map count).sum) (d + 1) := by
  suffices hitems : PlainItems xs ∧ nodesItems xs = (ms.map count).sum ∧ heightItems xs ≤ d + 1 from
    ⟨hitems.1, congrArg (1 + ·) hitems.2.1, hitems.2.2⟩
  induction h with
  | nil => exact ⟨trivial, rfl, Nat.zero_le _⟩
  | @cons x m xs ms hx _ ih =>
      obtain ⟨hplain, hnodes, hheight⟩ := ih
      refine ⟨⟨hx.plain, hplain⟩, ?_, ?_⟩
      · show BoundedJson.nodes x + nodesItems xs = _
        rw [hx.nodes, hnodes]
        rfl
      · have := hx.height
        exact Nat.max_le.mpr ⟨by omega, hheight⟩

/-- Every key of a dictionary, one after the other. -/
theorem forall_keys {P : String → Prop} {keys : List String} (h : keys.foldr (fun k p => P k ∧ p) True) :
    ∀ key ∈ keys, P key := by
  induction keys with
  | nil => exact fun _ hkey => absurd hkey List.not_mem_nil
  | cons k ks ih => exact List.forall_mem_cons.mpr ⟨h.1, ih h.2⟩

theorem lists_identity {fs : List (Text × Json)} {device inode size mtime : Int}
    (h : hasKeys fs ["device", "inode", "size", "mtime_ns"] = true)
    (h1 : field fs "device" = .int device) (h2 : field fs "inode" = .int inode)
    (h3 : field fs "size" = .int size) (h4 : field fs "mtime_ns" = .int mtime) :
    Lists (.obj fs) 5 1 := by
  refine lists_obj (fun _ => 1) h (by decide) (forall_keys ⟨?_, ?_, ?_, ?_, trivial⟩)
  · rw [h1]; exact lists_int _ _
  · rw [h2]; exact lists_int _ _
  · rw [h3]; exact lists_int _ _
  · rw [h4]; exact lists_int _ _

/-- The nodes of the identity of a directory. -/
def identityNodes : Option FileIdentity → Nat
  | some _ => 5
  | none => 1

theorem lists_empty (d : Nat) : Lists (.obj []) 1 d := ⟨⟨rfl, trivial⟩, rfl, Nat.zero_le _⟩

theorem Lists.mono {v : Json} {count d d' : Nat} (h : Lists v count d) (hd : d ≤ d') :
    Lists v count d' :=
  ⟨h.plain, h.nodes, Nat.le_trans h.height hd⟩

theorem lists_file {fs : List (Text × Json)} {path type sha256 : Text} {size : Int}
    (h : hasKeys fs ["path", "type", "size", "sha256", "identity"] = true)
    (h1 : field fs "path" = .str path) (h2 : field fs "type" = .str type)
    (h3 : field fs "size" = .int size) (h4 : field fs "sha256" = .str sha256)
    (h5 : Lists (field fs "identity") 5 1) : Lists (.obj fs) 10 2 := by
  refine lists_obj (fun key => if key = "identity" then 5 else 1) h (by decide)
    (forall_keys ⟨?_, ?_, ?_, ?_, h5, trivial⟩)
  · rw [h1]; exact lists_str _ _
  · rw [h2]; exact lists_str _ _
  · rw [h3]; exact lists_int _ _
  · rw [h4]; exact lists_str _ _

theorem lists_directory {fs : List (Text × Json)} {path type : Text} (identity : Option FileIdentity)
    (h : hasKeys fs ["path", "type", "identity"] = true) (h1 : field fs "path" = .str path)
    (h2 : field fs "type" = .str type) (h3 : Lists (field fs "identity") (identityNodes identity) 1) :
    Lists (.obj fs) (Kind.directory identity).nodes 2 := by
  have hlists := lists_obj (fun key => if key = "identity" then identityNodes identity else 1) h
    (by decide) (forall_keys ⟨by rw [h1]; exact lists_str _ _, by rw [h2]; exact lists_str _ _, h3, trivial⟩)
  cases identity with
  | none => exact hlists
  | some i => exact hlists

theorem lists_document {fs : List (Text × Json)} {schema : Text} {refItems items : List Json}
    {m : Document} (h : hasKeys fs ["schema", "evidence_refs", "entries"] = true)
    (h1 : field fs "schema" = .str schema) (h2 : field fs "evidence_refs" = .arr refItems)
    (h3 : field fs "entries" = .arr items)
    (hrefs : List.Forall₂ (fun v _ => Lists v 1 0) refItems m.evidenceRefs)
    (hentries : List.Forall₂ (fun v e => Lists v e.kind.nodes 2) items m.entries) :
    Lists (.obj fs) m.nodes 4 := by
  have hr := lists_arr (fun _ => 1) hrefs
  have he := lists_arr (fun e : Entry => e.kind.nodes) hentries
  have hlists := lists_obj (fun key => if key = "evidence_refs" then
      1 + (m.evidenceRefs.map (fun _ => 1)).sum
    else if key = "entries" then 1 + (m.entries.map (fun e => e.kind.nodes)).sum else 1) h (by decide)
    (d := 3) (forall_keys ⟨by rw [h1]; exact lists_str _ _, by rw [h2]; exact hr.mono (by omega),
      by rw [h3]; exact he, trivial⟩)
  refine ⟨hlists.plain, ?_, hlists.height⟩
  rw [hlists.nodes]
  show 1 + (1 + (1 + (m.evidenceRefs.map (fun _ => 1)).sum +
    (1 + (m.entries.map (fun e => e.kind.nodes)).sum + 0))) = m.nodes
  rw [List.map_const', List.sum_replicate_nat]
  unfold Document.nodes
  omega

/-! ## What was admitted -/

theorem canonicalJson_ok {digits : Nat} {v : Json} {raw : Bytes} (h : canonicalJson digits v = .ok raw) :
    fewDigits digits v = true ∧ dumps v = some raw := by
  unfold canonicalJson at h
  split at h
  · exact absurd h nofun
  next hdigits =>
    split at h
    · exact absurd h nofun
    next raw' hraw => exact ⟨Bool.eq_true_of_not_eq_false hdigits, Except.ok.inj h ▸ hraw⟩

theorem require_ok {c : Prop} [Decidable c] {code : String} {x : Unit}
    (h : require c code = .ok x) : c := by
  unfold require at h
  split at h
  next hc => exact hc
  · exact absurd h nofun

/-- What is known of a manifest under the budget: its document, as Python holds it,
    and the bytes of it. -/
structure Admitted (b : Budget) (digits : Nat) (v : Json) (m : Document) (raw : Bytes) : Prop where
  lists : Lists v m.nodes 4
  digits : fewDigits digits v = true
  encoded : dumps v = some raw
  length : raw.length ≤ b.maxMetadataBytes

section Push

theorem lists_toJson (e : Entry) : Lists e.toJson e.kind.nodes 2 := by
  obtain ⟨path, kind⟩ := e
  cases kind with
  | file size sha256 identity =>
      exact lists_file rfl rfl rfl rfl rfl (lists_identity rfl rfl rfl rfl rfl)
  | directory identity =>
      cases identity with
      | none => exact lists_directory none rfl rfl rfl (lists_empty 1)
      | some i => exact lists_directory (some i) rfl rfl rfl (lists_identity rfl rfl rfl rfl rfl)

theorem forall₂_map {α : Type} {f : α → Json} {P : Json → α → Prop} (h : ∀ a, P (f a) a)
    (as : List α) : List.Forall₂ P (as.map f) as := by
  induction as with
  | nil => exact .nil
  | cons a as ih => exact .cons (h a) ih

theorem lists_manifest (m : Document) : Lists m.toJson m.nodes 4 :=
  lists_document rfl rfl rfl rfl (forall₂_map (fun s => lists_str s 0) m.evidenceRefs)
    (forall₂_map lists_toJson m.entries)

/-- **A scan that returned** returned a manifest within the budget. -/
theorem admitted_scan {u : Unicode} {b : Budget} {digits : Nat} {files : Text → Except String Node}
    {sources : List Source} {refs : List Text} {m : Document}
    (h : scan u b digits files sources refs = .ok m) : ∃ raw, Admitted b digits m.toJson m raw := by
  obtain ⟨_, -, h⟩ := bind_ok h
  obtain ⟨_, -, h⟩ := bind_ok h
  obtain ⟨_, -, h⟩ := bind_ok h
  obtain ⟨_, -, h⟩ := bind_ok h
  obtain ⟨_, -, h⟩ := bind_ok h
  obtain ⟨s, -, h⟩ := bind_ok h
  obtain ⟨_, -, h⟩ := bind_ok h
  obtain ⟨raw, hraw, h⟩ := bind_ok h
  obtain ⟨_, hlength, h⟩ := bind_ok h
  obtain rfl := Except.ok.inj h
  obtain ⟨hdigits, hdumps⟩ := canonicalJson_ok hraw
  exact ⟨raw, lists_manifest _, hdigits, hdumps, require_ok hlength⟩

end Push

section Pull

theorem readNat_ok {v : Json} {n : Nat} (h : readNat v = .ok n) : ∃ i : Int, v = .int i := by
  unfold readNat at h
  split at h
  next i => exact ⟨i, rfl⟩
  · exact absurd h nofun

theorem readInt_ok {v : Json} {i : Int} (h : readInt v = .ok i) : v = .int i := by
  unfold readInt at h
  split at h
  · exact Except.ok.inj h ▸ rfl
  · exact absurd h nofun

theorem readText_ok {code : String} {v : Json} {s : Text} (h : readText code v = .ok s) :
    v = .str s := by
  unfold readText at h
  split at h
  · exact Except.ok.inj h ▸ rfl
  · exact absurd h nofun

theorem readItems_ok {v : Json} {items : List Json} (h : readItems v = .ok items) :
    v = .arr items := by
  unfold readItems at h
  split at h
  · exact Except.ok.inj h ▸ rfl
  · exact absurd h nofun

theorem lists_readIdentity {v : Json} {identity : Option FileIdentity}
    (h : readIdentity v = .ok identity) : Lists v (identityNodes identity) 1 := by
  unfold readIdentity at h
  split at h
  · exact Except.ok.inj h ▸ lists_empty 1
  · obtain ⟨fs, hfs, h⟩ := bind_ok h
    obtain ⟨hv, hkeys⟩ := object_ok hfs
    obtain ⟨device, hdevice, h⟩ := bind_ok h
    obtain ⟨inode, hinode, h⟩ := bind_ok h
    obtain ⟨size, hsize, h⟩ := bind_ok h
    obtain ⟨mtime, hmtime, h⟩ := bind_ok h
    obtain rfl := Except.ok.inj h
    obtain ⟨i1, h1⟩ := readNat_ok hdevice
    obtain ⟨i2, h2⟩ := readNat_ok hinode
    obtain ⟨i3, h3⟩ := readNat_ok hsize
    rw [hv]
    exact lists_identity hkeys h1 h2 h3 (readInt_ok hmtime)

theorem lists_readFileEntry {v : Json} {e : Entry} (h : readFileEntry v = .ok e) :
    Lists v e.kind.nodes 2 := by
  obtain ⟨fs, hfs, h⟩ := bind_ok h
  obtain ⟨hv, hkeys⟩ := object_ok hfs
  obtain ⟨path, hpath, h⟩ := bind_ok h
  obtain ⟨type, htype, h⟩ := bind_ok h
  obtain ⟨size, hsize, h⟩ := bind_ok h
  obtain ⟨sha256, hsha256, h⟩ := bind_ok h
  obtain ⟨identity, hidentity, h⟩ := bind_ok h
  obtain ⟨_, -, h⟩ := bind_ok h
  cases identity with
  | none => exact absurd h nofun
  | some i =>
      obtain ⟨_, -, h⟩ := bind_ok h
      obtain rfl := Except.ok.inj h
      obtain ⟨n, hn⟩ := readNat_ok hsize
      rw [hv]
      exact lists_file hkeys (readText_ok hpath) (readText_ok htype) hn (readText_ok hsha256)
        (lists_readIdentity hidentity)

theorem lists_readDirectoryEntry {v : Json} {e : Entry} (h : readDirectoryEntry v = .ok e) :
    Lists v e.kind.nodes 2 := by
  obtain ⟨fs, hfs, h⟩ := bind_ok h
  obtain ⟨hv, hkeys⟩ := object_ok hfs
  obtain ⟨path, hpath, h⟩ := bind_ok h
  obtain ⟨type, htype, h⟩ := bind_ok h
  obtain ⟨identity, hidentity, h⟩ := bind_ok h
  obtain ⟨_, -, h⟩ := bind_ok h
  obtain rfl := Except.ok.inj h
  rw [hv]
  exact lists_directory identity hkeys (readText_ok hpath) (readText_ok htype) (lists_readIdentity hidentity)

theorem lists_readEntry {v : Json} {e : Entry} (h : readEntry v = .ok e) : Lists v e.kind.nodes 2 := by
  unfold readEntry at h
  split at h
  · split at h
    · exact lists_readFileEntry h
    · split at h
      · exact lists_readDirectoryEntry h
      · exact absurd h nofun
  · exact absurd h nofun

theorem lists_readEntries {u : Unicode} {b : Budget} {vs : List Json} {logical : Nat}
    {es : List Entry} (h : readEntries u b vs logical = .ok es) :
    List.Forall₂ (fun v (e : Entry) => Lists v e.kind.nodes 2) vs es := by
  induction vs generalizing logical es with
  | nil =>
      obtain rfl := Except.ok.inj h
      exact .nil
  | cons v vs ih =>
      obtain ⟨e, he, h⟩ := bind_ok h
      obtain ⟨_, -, h⟩ := bind_ok h
      obtain ⟨_, -, h⟩ := bind_ok h
      obtain ⟨rest, hrest, h⟩ := bind_ok h
      obtain rfl := Except.ok.inj h
      exact .cons (lists_readEntry he) (ih hrest)

theorem lists_readRefs {vs : List Json} {refs : List Text} (h : readRefs vs = .ok refs) :
    List.Forall₂ (fun v _ => Lists v 1 0) vs refs := by
  induction vs generalizing refs with
  | nil =>
      obtain rfl := Except.ok.inj h
      exact .nil
  | cons v vs ih =>
      obtain ⟨ref, href, h⟩ := bind_ok h
      obtain ⟨rest, hrest, h⟩ := bind_ok h
      obtain rfl := Except.ok.inj h
      obtain rfl := readText_ok href
      exact .cons (lists_str ref 0) (ih hrest)

/-- **A package manifest that was validated** is within the budget. -/
theorem admitted_validated {u : Unicode} {b : Budget} {digits : Nat} {raw : Bytes} {v : Json}
    {m : Document} (h : validatedManifest u b digits raw = .ok (v, m)) : Admitted b digits v m raw := by
  obtain ⟨_, hlength, h⟩ := bind_ok h
  obtain ⟨v', -, h⟩ := bind_ok h
  obtain ⟨fs, hfs, h⟩ := bind_ok h
  obtain ⟨hv, hkeys⟩ := object_ok hfs
  obtain ⟨schema, hschema, h⟩ := bind_ok h
  obtain ⟨items, hitems, h⟩ := bind_ok h
  obtain ⟨refItems, hrefItems, h⟩ := bind_ok h
  obtain ⟨refs, hrefs, h⟩ := bind_ok h
  obtain ⟨_, -, h⟩ := bind_ok h
  obtain ⟨encoded, hencoded, h⟩ := bind_ok h
  obtain ⟨_, hsame, h⟩ := bind_ok h
  obtain ⟨_, -, h⟩ := bind_ok h
  obtain ⟨entries, hentries, h⟩ := bind_ok h
  obtain ⟨_, -, h⟩ := bind_ok h
  obtain ⟨_, -, h⟩ := bind_ok h
  obtain ⟨_, -, h⟩ := bind_ok h
  obtain ⟨rfl, rfl⟩ := Prod.mk.inj (Except.ok.inj h)
  obtain ⟨hdigits, hdumps⟩ := canonicalJson_ok hencoded
  obtain rfl := require_ok hsame
  have hlists := lists_document (m := { evidenceRefs := refs, entries }) hkeys (readText_ok hschema)
    (readItems_ok hrefItems) (readItems_ok hitems) (lists_readRefs hrefs) (lists_readEntries hentries)
  rw [← hv] at hlists
  exact { lists := hlists
          digits := hdigits, encoded := hdumps, length := require_ok hlength }

end Pull

end Manifest
