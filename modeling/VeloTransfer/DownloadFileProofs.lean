import VeloTransfer.UploadInventoryProofs
import VeloTransfer.FaultScriptProofs

/-! # Downloading a file of a flow — one attempt and its publication

    A download reads an upload chunk by chunk into a temporary file of its own and
    publishes it by one hard link.  Every operation on a path may fail, and others may
    put a file at the destination at any moment: the link is what decides.

    * `operate` — one operation on the download directory, and what the outside does to it;
    * `attempt` — the tool on one client, up to its result or its error;
    * `downloadFlowFile` — the call, with its second attempt. -/

namespace DownloadFile

open CanonicalJson EffectPrograms EffectPrograms.Program
open McpCore FlowFiles
open FaultScript (happened)
open Sha256 (hexdigest)

abbrev Bytes : Type := List UInt8

def VFS_CHUNK_BYTES : Nat := 1024 * 1024

/-! ## The download directory -/

/-- A file, or what else a path may name. -/
structure Node where
  identity : Nat
  isSymlink : Bool
  isReparsePoint : Bool
  bytes : Bytes

/-- `_is_reparse`. -/
def Node.isReparse (n : Node) : Bool := n.isSymlink || n.isReparsePoint

/-- Who put a file at the destination. -/
inductive Origin where
  | ours
  | others
deriving DecidableEq, Repr

/-- What the backend answered: the rows of the uploads, or a chunk of a file. -/
inductive Answer where
  | uploads (client : ClientId) (rows : List (List (Text × Json)))
  | chunk (components : List Text) (padding : Bool) (offset : Nat) (bytes : Bytes)

/-- What the outside does at one operation: a file that others put at the destination,
    the identity that a new file gets, what a check finds, and the error that is raised
    after some progress. -/
structure FileEvent where
  rival : Option Node
  identity : Nat
  reading : Nat
  fault : Option (Raised × Nat)

def FileEvent.calm : FileEvent := { rival := none, identity := 0, reading := 0, fault := none }

/-- The directory of the file, and the variables of the attempt.  `appeared` and `answers`
    are what ever stood at the destination and what the backend answered; the events
    are those up to the link of this call, and those after it. -/
structure Local where
  final : Option (Origin × Node)
  temp : Option Node
  linked : Bool
  tempIdentity : Option Nat
  cleanupAttempted : Bool
  appeared : List (Origin × Node)
  answers : List Answer
  before : List FileEvent
  after : List FileEvent

/-- A file of this call stands, or stood, at the destination. -/
def Local.published (v : Local) : Bool := v.appeared.any fun x => x.1 == .ours

def Local.finalNode (v : Local) : Option Node := v.final.map Prod.snd

/-- What the backend keeps, beside the directory. -/
structure Site (ρ : Type) where
  remote : ρ
  here : Local

abbrev Effect (ρ α : Type) : Type := Program (Shared (Site ρ)) Raised α

section Operations

variable {ρ α : Type}

def here (s : Shared (Site ρ)) : Local := s.outside.here

def withHere (s : Shared (Site ρ)) (v : Local) : Shared (Site ρ) :=
  { s with outside := { s.outside with here := v } }

def setHere (f : Local → Local) : Effect ρ Unit := update fun s => withHere s (f (here s))

def getHere : Effect ρ Local := do
  let s ← read
  pure (here s)

/-- The next event, and the events that are left. -/
def Local.pop (v : Local) : FileEvent × Local :=
  if v.published then
    match v.after with
    | [] => (.calm, v)
    | event :: rest => (event, { v with after := rest })
  else
    match v.before with
    | [] => (.calm, v)
    | event :: rest => (event, { v with before := rest })

/-- Others put their file where there is none. -/
def Local.arrive (rival : Option Node) (v : Local) : Local :=
  match v.final, rival with
  | none, some node => { v with final := some (.others, node), appeared := v.appeared ++ [(.others, node)] }
  | _, _ => v

def nextEvent : Effect ρ FileEvent := fun s =>
  let (event, v) := (here s).pop
  (.done event, withHere s (v.arrive event.rival))

/-- One operation on a path: under a fault, only `progress` units of the change are done. -/
def operate (change : FileEvent → Option Nat → Local → Local) : Effect ρ FileEvent := do
  let event ← nextEvent
  match event.fault with
  | none => do
      setHere (change event none)
      pure event
  | some (e, progress) => do
      setHere (change event (some progress))
      raise e

/-- A check of a path that changes nothing. -/
def observe : Effect ρ Nat := do
  let event ← operate fun _ _ v => v
  pure event.reading

/-! ## Errors -/

def failure (reason : String) : Raised := .backend "download_flow_file" reason

def FILE_NOT_FOUND : Raised := .exception "FileNotFoundError"

def FILE_EXISTS : Raised := .exception "FileExistsError"

/-- `AlreadyExistsError`, of the flow file. -/
def ALREADY_EXISTS : Raised := .exception "AlreadyExistsError"

/-- `DownloadPostPublishError`. -/
def POST_PUBLISH : Raised := failure "download_post_publish_failed"

/-- The names of `OSError` and of what is built in below it. -/
def OS_ERRORS : List String :=
  ["OSError", "BlockingIOError", "BrokenPipeError", "ChildProcessError", "ConnectionAbortedError",
    "ConnectionError", "ConnectionRefusedError", "ConnectionResetError", "FileExistsError", "FileNotFoundError",
    "InterruptedError", "IsADirectoryError", "NotADirectoryError", "PermissionError", "ProcessLookupError",
    "TimeoutError"]

def isOSError : Raised → Bool
  | .exception name => decide (name ∈ OS_ERRORS)
  | _ => false

def isBackendError : Raised → Bool
  | .backend _ _ => true
  | _ => false

/-! ## Checks of paths

    What a directory on the way is belongs to the outside; the files are those of
    the state. -/

/-- `_assert_plain_path`, of a directory. -/
def assertPlainPath : Effect ρ Unit := do
  let reading ← observe
  raiseIf (reading ≠ 0) (failure "reparse_point")

/-- `_assert_contained`. -/
def assertContained : Effect ρ Unit := do
  let reading ← observe
  raiseIf (reading ≠ 0) (failure "path_escape")

/-- `Path.lstat`, of a file. -/
def lstat (look : Local → Option Node) : Effect ρ Node := do
  let _ ← observe
  let v ← getHere
  match look v with
  | none => raise FILE_NOT_FOUND
  | some node => pure node

/-- `_assert_plain_path`, of a file. -/
def assertPlainFile (look : Local → Option Node) : Effect ρ Unit := do
  let node ← lstat look
  raiseIf (node.isReparse = true) (failure "reparse_point")

/-- `_assert_safe_chain`, of the root and the two directories. -/
def assertSafeDirectories : Effect ρ Unit := do
  assertPlainPath
  assertContained
  assertPlainPath
  assertContained
  assertPlainPath
  assertContained

/-- `_assert_safe_chain`, down to a file. -/
def assertSafeChain (look : Local → Option Node) : Effect ρ Unit := do
  assertSafeDirectories
  assertPlainFile look
  assertContained

/-- `_assert_owned_file`. -/
def assertOwnedFile (look : Local → Option Node) (identity : Nat) : Effect ρ Unit := do
  let info ← lstat look
  if info.identity ≠ identity then raise (failure "path_escape")
  else do
    let node ← lstat look
    raiseIf (node.isReparse = true) (failure "path_escape")

/-- `_ensure_child`: a directory that is there already is as good as a new one. -/
def ensureChild : Effect ρ Unit := do
  handle (do
    let _ ← observe
    pure ()) (fun e => if e = FILE_EXISTS then pure () else raise e)
  let reading ← observe
  raiseIf (reading ≠ 0) (failure "path_not_directory")
  assertPlainPath
  assertContained

/-- `final.exists()`: where it is a symbolic link, what it leads to decides. -/
def finalExists : Effect ρ Bool := do
  let reading ← observe
  let v ← getHere
  pure (match v.finalNode with
    | none => false
    | some node => !node.isSymlink || reading == 0)

/-- `final.is_symlink()`. -/
def finalIsSymlink : Effect ρ Bool := do
  let _ ← observe
  let v ← getHere
  pure (match v.finalNode with
    | none => false
    | some node => node.isSymlink)

/-- What is at the destination before the download is refused. -/
def refuseFound (found : Bool) : Effect ρ Unit :=
  whenever (found = true) (do
    let there ← finalExists
    whenever (there = true) (assertPlainFile Local.finalNode)
    raise ALREADY_EXISTS)

def assertAbsent : Effect ρ Unit := do
  let there ← finalExists
  if there then refuseFound true
  else do
    let symlink ← finalIsSymlink
    refuseFound symlink

/-! ## Changes -/

/-- The temporary file gets a name of its own, and the attempt its variables. -/
def beginAttempt (v : Local) : Local :=
  { v with temp := none, linked := false, tempIdentity := none, cleanupAttempted := false }

/-- `temp.open("xb")`: a new file, with an identity of its own. -/
def openTemp : Effect ρ Nat := do
  let event ← operate fun event progress v =>
    if happened progress then { v with temp := some ⟨event.identity, false, false, []⟩ } else v
  pure event.identity

/-- `os.fstat`, of the stream. -/
def takeIdentity (identity : Nat) : Effect ρ Unit := do
  let _ ← observe
  setHere fun v => { v with tempIdentity := some identity }

def Node.append (n : Node) (chunk : Bytes) : Node := { n with bytes := n.bytes ++ chunk }

/-- `stream.write`. -/
def writeChunk (chunk : Bytes) : Effect ρ Unit := do
  let _ ← operate fun _ progress v =>
    { v with temp := v.temp.map (Node.append · (match progress with
        | none => chunk
        | some n => chunk.take n)) }
  pure ()

/-- The end of the block of the stream, which closes it however it ends. -/
def closing (m : Effect ρ α) : Effect ρ α := do
  let result ← handle m (fun e => do
    let _ ← observe
    raise e)
  let _ ← observe
  pure result

/-- The temporary file gets the name of the destination, where nothing has it. -/
def linkInto (v : Local) : Effect ρ Unit :=
  match v.final, v.temp with
  | some _, _ => raise FILE_EXISTS
  | none, none => raise FILE_NOT_FOUND
  | none, some node =>
      setHere fun v => { v with final := some (.ours, node), appeared := v.appeared ++ [(.ours, node)] }

/-- `os.link`: one that fails has not taken place. -/
def osLink : Effect ρ Unit := do
  let event ← nextEvent
  match event.fault with
  | some (e, _) => raise e
  | none => do
      let v ← getHere
      linkInto v

/-- The link, and the variable that tells of it. -/
def publishLink : Effect ρ Unit :=
  handle (do
    osLink
    setHere fun v => { v with linked := true })
  (fun e => if e = FILE_EXISTS then raise ALREADY_EXISTS else raise e)

def unlinkTemp : Effect ρ Unit := do
  let _ ← operate fun _ progress v => if happened progress then { v with temp := none } else v
  pure ()

/-- `_cleanup_owned_temp`. -/
def cleanupOwnedTemp (identity : Nat) : Effect ρ Bool :=
  handle (do
    assertPlainPath
    assertContained
    let info ← lstat Local.temp
    if info.identity ≠ identity then pure false
    else do
      let node ← lstat Local.temp
      if node.isReparse then pure false
      else do
        assertContained
        unlinkTemp
        pure true)
  (fun e =>
    if e = FILE_NOT_FOUND then pure true
    else if isOSError e then pure false
    else if isBackendError e then pure false
    else raise e)

end Operations

/-! ## The backend -/

/-- The backend, which does not reach into the download directory. -/
structure DownloadBackend (ρ : Type) where
  flow : FlowBackend (Site ρ)
  listFlowUploads : ClientId → Text → Effect ρ Json
  readVfsBuffer : List Text → Nat → Nat → Bool → Effect ρ (Option Bytes)
  apart_list : Fixes here flow.target.listWindowsClients
  apart_exists : ∀ client, Fixes here (flow.target.clientIdExists client)
  apart_details : ∀ client id, Fixes here (flow.getFlowDetails client id)
  apart_uploads : ∀ client id, Fixes here (listFlowUploads client id)
  apart_read : ∀ components offset length padding, Fixes here (readVfsBuffer components offset length padding)

/-- The configured root, as the path library of the host reads it. -/
structure RootValue where
  value : Option Text
  isAbsolute : Bool
  ancestors : Nat
  resolved : Text

structure DownloadResult where
  flowId : Text
  fileId : Text
  localPath : Text
  size : Nat
  sha256 : Text
  originalPath : Text

section Tool

variable {ρ : Type} (py : Python) (refuse : Scope → Fact → Option Raised) (backend : DownloadBackend ρ)

def note (answer : Answer) : Effect ρ Unit := setHere fun v => { v with answers := v.answers ++ [answer] }

/-- A list of dictionaries. -/
def dictionaries : List Json → Option (List (List (Text × Json)))
  | [] => some []
  | .obj fields :: rest => (dictionaries rest).map (fields :: ·)
  | _ :: _ => none

def uploadRows : Json → Option (List (List (Text × Json)))
  | .arr items => dictionaries items
  | _ => none

/-- `_file_records`. -/
def fileRecords (client : ClientId) (flow : Text) : Effect ρ FileInventory := do
  let _ ← flowDetails refuse backend.flow client flow
  flowReadGuard
  let answer ← backendCall "list_flow_files" (backend.listFlowUploads client flow)
  match uploadRows answer with
  | none => raise (.backend "list_flow_files" "invalid_uploads")
  | some rows => do
      note (.uploads client rows)
      emitFact refuse (.flow "flow.files.raw" client)
      let inventory ← ofExcept (deduplicatedUploads py client.val flow rows)
      emitFact refuse (.flow "flow.files.inventory" client)
      pure inventory

/-- The file that is asked for. -/
def selectedOf (fileId : Text) (inventory : FileInventory) : Option FileRecord :=
  inventory.records.find? fun record => record.fileId == fileId

/-- `_read_vfs_stream`: the size and the digest of what was read.  A backend that sends on
    and on uses up the fuel, and such a call never ends. -/
def readVfsStream (record : FileRecord) (padding : Bool) (write : Bytes → Effect ρ Unit) :
    Nat → Bytes → Effect ρ (Nat × Text)
  | 0, _ => crash
  | fuel + 1, soFar => do
      let chunk ← backendCall "download_flow_file"
        (backend.readVfsBuffer record.components soFar.length VFS_CHUNK_BYTES padding)
      match chunk with
      | none => raise (failure "invalid_vfs_chunk")
      | some bytes =>
          if bytes.length > VFS_CHUNK_BYTES then raise (failure "invalid_vfs_chunk")
          else do
            note (.chunk record.components padding soFar.length bytes)
            if bytes = [] then pure (soFar.length, hexdigest soFar)
            else do
              write bytes
              readVfsStream record padding write fuel (soFar ++ bytes)

/-- The compact bytes of a sparse file, whose size was recorded too. -/
def readCompact (fuel : Nat) (selected : FileRecord) : Effect ρ Unit :=
  whenever (selected.indexSelector.isSome = true) (do
    let read ← readVfsStream backend selected false (fun _ => pure ()) fuel []
    raiseIf ((read.1 : Int) ≠ selected.uploadedSize) (failure "size_mismatch"))

/-- The block of the stream: the bytes of the file, written and flushed. -/
def readContent (fuel : Nat) (selected : FileRecord) (identity : Nat) : Effect ρ (Nat × Text) :=
  closing (do
    takeIdentity identity
    let read ← readVfsStream backend selected selected.indexSelector.isSome writeChunk fuel []
    let _ ← observe
    let _ ← observe
    pure read)

/-- The metadata are read again, and must be what they were. -/
def recheck (client : ClientId) (flow fileId : Text) (selected : FileRecord) : Effect ρ Unit := do
  let refreshed ← fileRecords py refuse backend client flow
  raiseIf (¬ (selectedOf fileId refreshed).any (fun r => r.same py selected) = true) (failure "metadata_changed")

/-- What the result holds as text. -/
def isText (s : Text) : Bool := s.all fun c => !isSurrogate c

/-- `_cleanup_owned_temp` in an error path, at most once. -/
def cleanupOnce : Effect ρ Unit := do
  let v ← getHere
  match v.tempIdentity with
  | none => pure ()
  | some identity => whenever (v.cleanupAttempted = false) (do
      setHere fun v => { v with cleanupAttempted := true }
      let _ ← cleanupOwnedTemp identity
      pure ())

/-- What follows the link: the checks of the published file, and the removal of the
    temporary one. -/
def settle (identity size : Nat) : Effect ρ Unit := do
  assertSafeChain Local.finalNode
  assertOwnedFile Local.finalNode identity
  assertContained
  let node ← lstat Local.finalNode
  raiseIf (node.bytes.length ≠ size) (failure "size_mismatch")
  setHere fun v => { v with cleanupAttempted := true }
  let removed ← cleanupOwnedTemp identity
  raiseIf (removed = false) POST_PUBLISH

/-- The checks of the temporary file right before the link. -/
def assertTemp : Effect ρ Nat := do
  let v ← getHere
  match v.tempIdentity with
  | none => raise (failure "path_escape")
  | some identity => do
      assertSafeChain Local.temp
      assertOwnedFile Local.temp identity
      pure identity

/-- The block of the download. -/
def publish (fuel : Nat) (root key flow fileId : Text) (client : ClientId) (selected : FileRecord) :
    Effect ρ DownloadResult := do
  assertSafeDirectories
  readCompact backend fuel selected
  let opened ← openTemp
  let read ← readContent backend fuel selected opened
  assertSafeChain Local.temp
  raiseIf ((read.1 : Int) ≠ selected.fileSize) (failure "size_mismatch")
  recheck py refuse backend client flow fileId selected
  let identity ← assertTemp
  publishLink
  settle identity read.1
  raiseIf (isText selected.originalPath = false) (.exception "ValidationError")
  pure { flowId := flow, fileId := fileId
         localPath := root ++ [47] ++ key ++ [47] ++ fileId ++ ascii "/content.bin"
         size := read.1, sha256 := read.2, originalPath := selected.originalPath }

/-- The handler of the block: an error after the link is another one than before it. -/
def onError {α : Type} (e : Raised) : Effect ρ α :=
  if isException e then do
    let v ← getHere
    cleanupOnce
    if v.linked then raise POST_PUBLISH
    else raise (if e = ALREADY_EXISTS then e else wrapError "download_flow_file" e)
  else raise e

/-- `flow_id.encode("utf-8")`, digested. -/
def flowKey (flow : Text) : Except Raised Text :=
  match encodeUtf8 flow with
  | none => .error (.exception "UnicodeEncodeError")
  | some raw => .ok (hexdigest raw)

/-- The operation of `download_flow_file` on its client. -/
def attempt (fuel : Nat) (root flow fileId : Text) (client : ClientId) : Effect ρ DownloadResult := do
  let inventory ← fileRecords py refuse backend client flow
  match selectedOf fileId inventory with
  | none => raise (.notFound "flow_file" fileId)
  | some selected => do
      raiseIf (selected.indexSelector = none ∧ selected.fileSize ≠ selected.uploadedSize) (failure "size_mismatch")
      let key ← ofExcept (flowKey flow)
      backendCall "download_flow_file" ensureChild
      backendCall "download_flow_file" ensureChild
      assertAbsent
      setHere beginAttempt
      handle (publish py refuse backend fuel root key flow fileId client selected) onError

/-- `_download_root`. -/
def downloadRoot (root : RootValue) : Effect ρ Text :=
  match root.value with
  | none => raise (.invalidArgument "VELOCIRAPTOR_DOWNLOAD_ROOT" "missing" none)
  | some [] => raise (.invalidArgument "VELOCIRAPTOR_DOWNLOAD_ROOT" "missing" none)
  | some (_ :: _) => do
      raiseIf (root.isAbsolute = false) (.invalidArgument "VELOCIRAPTOR_DOWNLOAD_ROOT" "relative" none)
      let there ← observe
      raiseIf (there ≠ 0) (.invalidArgument "VELOCIRAPTOR_DOWNLOAD_ROOT" "not_directory" none)
      each (fun _ => do
        let missing ← observe
        whenever (missing = 0) assertPlainPath) (List.range (root.ancestors + 1))
      let _ ← observe
      pure root.resolved

/-- A step of the tool outside its attempts. -/
def onShared {α : Type} (m : Effect ρ α) : Program (World (Site ρ)) Raised α := fun w =>
  ((m w.shared).1, { w with shared := (m w.shared).2 })

/-- `download_flow_file`. -/
def downloadFlowFile (fuel : Nat) (root : RootValue) (flow fileId : Text) :
    Program (World (Site ρ)) Raised DownloadResult := do
  let _ ← ofExcept (requireText flow "flow_id")
  let _ ← ofExcept (requireText fileId "file_id")
  raiseIf (Sha256.isHex fileId = false) (.invalidArgument "file_id" "format" none)
  let resolved ← onShared (backendCall "download_flow_file" (downloadRoot root))
  runWithClient refuse backend.flow.target (attempt py refuse backend fuel resolved flow fileId)

end Tool

end DownloadFile
