import VeloTransfer.Base64Proofs
import VeloTransfer.Sha256Proofs
import VeloTransfer.FaultScriptProofs
import VeloTransfer.JsonDictProofs

/-! # The control channel — the commands and what the guest does under them

    A request reaches the Windows guest through commands of PowerShell: a file is made,
    the request is written into it piece by piece and verified, the helper is run on it,
    and the file is deleted.

    * `Command.script` — the text of a command;
    * `Guest.run` — what a command does where it is run, also under a fault;
    * `parseOuterStatus`, `parseHelper` — what the host makes of what was printed. -/

namespace ControlChannel

open CanonicalJson JsonDict
open FaultScript (happened)
open Sha256 (hexdigest isHexChar)

abbrev Bytes : Type := List UInt8

/-! ## Texts of commands -/

def MAX_COMMAND_CHARS : Nat := 28000

def EXECUTOR_PREFIX : Text := ascii
  "$OutputEncoding = [System.Text.Encoding]::UTF8; [Console]::OutputEncoding = [System.Text.Encoding]::UTF8; "

def STOP_ON_ERROR : Text := ascii "$ErrorActionPreference='Stop';"

def IDENTITY_SOURCE : Text := ascii <|
  "using System; using System.ComponentModel; using System.Runtime.InteropServices; " ++
  "using Microsoft.Win32.SafeHandles; " ++
  "public static class VeloRequestIdentity \x7b " ++
  "[StructLayout(LayoutKind.Sequential)] public struct FileTime \x7b public uint low; public uint high; \x7d " ++
  "[StructLayout(LayoutKind.Sequential)] public struct Info \x7b " ++
  "public uint attributes; public FileTime created; public FileTime accessed; public FileTime written; " ++
  "public uint volume; public uint sizeHigh; public uint sizeLow; public uint links; " ++
  "public uint indexHigh; public uint indexLow; \x7d " ++
  "[DllImport(\"kernel32.dll\", SetLastError=true)] " ++
  "private static extern bool GetFileInformationByHandle(SafeFileHandle handle, out Info info); " ++
  "[DllImport(\"kernel32.dll\", CharSet=CharSet.Unicode, SetLastError=true)] " ++
  "private static extern SafeFileHandle CreateFile(string path, uint access, uint share, " ++
  "IntPtr security, uint creation, uint flags, IntPtr template); " ++
  "[StructLayout(LayoutKind.Sequential)] public struct Disposition \x7b " ++
  "[MarshalAs(UnmanagedType.Bool)] public bool delete; \x7d " ++
  "[DllImport(\"kernel32.dll\", SetLastError=true)] " ++
  "private static extern bool SetFileInformationByHandle(SafeFileHandle handle, int kind, " ++
  "ref Disposition disposition, uint size); " ++
  "public static string Read(SafeFileHandle handle) \x7b Info info; " ++
  "if (!GetFileInformationByHandle(handle, out info)) " ++
  "throw new Win32Exception(Marshal.GetLastWin32Error()); " ++
  "if (info.links != 1) throw new InvalidOperationException(\"hardlink\"); " ++
  "return info.volume.ToString(\"x8\") + info.indexHigh.ToString(\"x8\") " ++
  "+ info.indexLow.ToString(\"x8\"); \x7d " ++
  "public static void DeleteOwned(string path, string expected) \x7b " ++
  "using (SafeFileHandle handle = CreateFile(path, 0x10080, 0, IntPtr.Zero, 3, 0x200000, IntPtr.Zero)) \x7b " ++
  "if (handle.IsInvalid) throw new Win32Exception(Marshal.GetLastWin32Error()); " ++
  "Info info; if (!GetFileInformationByHandle(handle, out info)) " ++
  "throw new Win32Exception(Marshal.GetLastWin32Error()); " ++
  "if ((info.attributes & 0x400) != 0 || Read(handle) != expected) " ++
  "throw new InvalidOperationException(\"request_replaced\"); " ++
  "Disposition disposition = new Disposition(); disposition.delete = true; " ++
  "if (!SetFileInformationByHandle(handle, 4, ref disposition, " ++
  "(uint)Marshal.SizeOf(typeof(Disposition)))) " ++
  "throw new Win32Exception(Marshal.GetLastWin32Error()); \x7d \x7d \x7d"

/-- `value.replace`, of a quote by two. -/
def doubled : Text → Text
  | [] => []
  | c :: cs => if c = 39 then 39 :: 39 :: doubled cs else c :: doubled cs

/-- `literal`. -/
def literal (value : Text) : Except String Text :=
  if 0 ∈ value then .error "invalid_literal" else .ok (39 :: doubled value ++ [39])

/-- `_identity_setup`. -/
def identitySetup : Except String Text := do
  let source ← literal IDENTITY_SOURCE
  pure (ascii "Add-Type -TypeDefinition " ++ source ++ ascii ";")

def isIdentity (identity : Text) : Bool := identity.length == 24 && identity.all isHexChar

/-- `_checked_identity`. -/
def checkedIdentity (identity : Text) : Except String Text :=
  if isIdentity identity then literal identity else .error "invalid_request_identity"

/-- The bytes of `encode("utf-16le")`, as many as there are. -/
def utf16Length : Text → Except String Nat
  | [] => .ok 0
  | c :: cs =>
      if isSurrogate c then .error "UnicodeEncodeError"
      else (utf16Length cs).map (· + if c < 0x10000 then 2 else 4)

def SHELL_ARGUMENTS : List Text :=
  [ascii "powershell.exe", ascii "-NoProfile", ascii "-OutputFormat", ascii "Text", ascii "-EncodedCommand"]

/-- `encoded_argv_length`, for the shell that every command has. -/
def encodedArgvLength (script : Text) : Except String Nat := do
  let units ← utf16Length (EXECUTOR_PREFIX ++ script)
  pure ((SHELL_ARGUMENTS.map List.length).sum + 4 * ((units + 2) / 3) + SHELL_ARGUMENTS.length)

/-- `bounded`. -/
@[irreducible]
def bounded (script : Text) : Except String Text := do
  let stopping := if STOP_ON_ERROR <+: script then script else STOP_ON_ERROR ++ script
  let length ← encodedArgvLength stopping
  if length > MAX_COMMAND_CHARS then .error "command_too_long" else pure stopping

/-- `rstrip`, of the separator. -/
def stripSeparators (root : Text) : Text := (root.reverse.dropWhile (· == 92)).reverse

/-- `requests_path`. -/
def requestsPath (workRoot nonce : Text) : Except String Text :=
  if nonce.length = 32 ∧ nonce.all isHexChar = true then
    .ok (stripSeparators workRoot ++ ascii "\\requests\\" ++ nonce ++ ascii ".json")
  else .error "invalid_nonce"

/-- `path.rsplit`, at the last separator. -/
def parentOf (path : Text) : Text :=
  if 92 ∈ path then ((path.reverse.dropWhile (· != 92)).drop 1).reverse else path

/-- Where the helper is, and what it is told. -/
structure Deployment where
  guestWorkRoot : Text
  pythonPath : Text
  projectRoot : Text
  policyPath : Text
  extraTrustedSids : Text

/-- `create_script`. -/
def createScript (path : Text) : Except String Text := do
  let parent ← literal (parentOf path)
  let quoted ← literal path
  let setup ← identitySetup
  bounded (ascii "$d=" ++ parent ++ ascii ";$p=" ++ quoted ++ ascii ";" ++
    ascii "if(-not [IO.Directory]::Exists($d))\x7bthrow 'missing_requests'\x7d;" ++
    ascii "$di=[IO.DirectoryInfo]::new($d);while($null -ne $di)\x7bif(($di.Attributes -band [IO.FileAttributes]::ReparsePoint) -ne 0)\x7bthrow 'reparse'\x7d;$di=$di.Parent\x7d;" ++
    setup ++
    ascii "$f=[IO.File]::Open($p,[IO.FileMode]::CreateNew,[IO.FileAccess]::ReadWrite,[IO.FileShare]::None);" ++
    ascii "try\x7b$id=[VeloRequestIdentity]::Read($f.SafeFileHandle)\x7dfinally\x7b$f.Dispose()\x7d;'ACK:created:'+$id")

/-- `write_script`. -/
def writeScript (path : Text) (offset : Nat) (raw : Bytes) (identity : Text) : Except String Text := do
  if raw = [] then .error "invalid_chunk"
  else
    let quoted ← literal path
    let owner ← checkedIdentity identity
    let digest ← literal (hexdigest raw)
    let encoded ← literal (Base64.encode raw)
    let setup ← identitySetup
    bounded (ascii "$p=" ++ quoted ++ ascii ";$id=" ++ owner ++ ascii ";$o=" ++ decimal offset ++
      ascii ";$n=" ++ decimal raw.length ++ ascii ";$h=" ++ digest ++
      ascii ";$b=[Convert]::FromBase64String(" ++ encoded ++ ascii ");" ++
      ascii "$sha=[Security.Cryptography.SHA256]::Create();try\x7b$got=([BitConverter]::ToString($sha.ComputeHash($b))).Replace('-','').ToLowerInvariant()\x7dfinally\x7b$sha.Dispose()\x7d;" ++
      ascii "if($b.Length -ne $n -or $got -ne $h)\x7bthrow 'chunk_hash'\x7d;" ++
      ascii "$fi=[IO.FileInfo]::new($p);if(-not $fi.Exists -or ($fi.Attributes -band [IO.FileAttributes]::ReparsePoint) -ne 0)\x7bthrow 'missing_request'\x7d;" ++
      setup ++
      ascii "$f=[IO.File]::Open($p,[IO.FileMode]::Open,[IO.FileAccess]::ReadWrite,[IO.FileShare]::None);" ++
      ascii "try\x7bif([VeloRequestIdentity]::Read($f.SafeFileHandle) -ne $id)\x7bthrow 'request_replaced'\x7d;" ++
      ascii "if($f.Length -eq $o)\x7b$f.Position=$o;$f.Write($b,0,$n);$f.Flush($true)\x7d" ++
      ascii "elseif($f.Length -ge ($o+$n))\x7b$old=New-Object byte[] $n;$f.Position=$o;" ++
      ascii "if($f.Read($old,0,$n) -ne $n)\x7bthrow 'offset_conflict'\x7d;for($i=0;$i -lt $n;$i++)\x7bif($old[$i] -ne $b[$i])\x7bthrow 'offset_conflict'\x7d\x7d\x7d" ++
      ascii "else\x7bthrow 'offset_conflict'\x7d\x7dfinally\x7b$f.Dispose()\x7d;" ++
      ascii "'ACK:'+$o+':'+$n+':'+$h")

/-- `verify_script`. -/
def verifyScript (path : Text) (size : Nat) (sha256 identity : Text) : Except String Text := do
  let quoted ← literal path
  let owner ← checkedIdentity identity
  let digest ← literal sha256
  let setup ← identitySetup
  bounded (ascii "$p=" ++ quoted ++ ascii ";$id=" ++ owner ++ ascii ";$n=" ++ decimal size ++
    ascii ";$h=" ++ digest ++ ascii ";" ++
    ascii "$fi=[IO.FileInfo]::new($p);if(-not $fi.Exists -or ($fi.Attributes -band [IO.FileAttributes]::ReparsePoint) -ne 0 -or $fi.Length -ne $n)\x7bthrow 'request_size'\x7d;" ++
    setup ++
    ascii "$f=[IO.File]::OpenRead($p);$sha=[Security.Cryptography.SHA256]::Create();" ++
    ascii "try\x7bif([VeloRequestIdentity]::Read($f.SafeFileHandle) -ne $id)\x7bthrow 'request_replaced'\x7d;" ++
    ascii "$actual=([BitConverter]::ToString($sha.ComputeHash($f))).Replace('-','').ToLowerInvariant()\x7d" ++
    ascii "finally\x7b$sha.Dispose();$f.Dispose()\x7d;" ++
    ascii "if($actual -ne $h)\x7bthrow 'request_hash'\x7d;'ACK:verified'")

/-- What `invoke_script` puts before the helper. -/
def trustedPrefix (sids : Text) : Except String Text :=
  if sids = [] then .ok []
  else if 0 ∈ sids ∨ 39 ∈ sids then .error "invalid_trusted_sid"
  else (literal sids).map fun quoted => ascii "$env:VELOCIRAPTOR_TRANSFER_EXTRA_TRUSTED_SIDS=" ++ quoted ++ ascii ";"

/-- `invoke_script`. -/
def invokeScript (d : Deployment) (path identity : Text) : Except String Text := do
  let before ← trustedPrefix d.extraTrustedSids
  let quoted ← literal path
  let owner ← checkedIdentity identity
  let setup ← identitySetup
  let policy ← literal d.policyPath
  let root ← literal d.projectRoot
  let python ← literal d.pythonPath
  bounded (ascii "$p=" ++ quoted ++ ascii ";$id=" ++ owner ++ ascii ";" ++ setup ++
    ascii "$fi=[IO.FileInfo]::new($p);if(-not $fi.Exists -or ($fi.Attributes -band [IO.FileAttributes]::ReparsePoint) -ne 0)\x7bthrow 'request_replaced'\x7d;" ++
    ascii "$f=[IO.File]::OpenRead($p);try\x7bif([VeloRequestIdentity]::Read($f.SafeFileHandle) -ne $id)\x7bthrow 'request_replaced'\x7d\x7dfinally\x7b$f.Dispose()\x7d;" ++
    ascii "$env:VELOCIRAPTOR_TRANSFER_POLICY=" ++ policy ++ ascii ";" ++ before ++
    ascii "Push-Location -LiteralPath " ++ root ++ ascii ";" ++
    ascii "$err=[IO.Path]::GetTempFileName();" ++
    ascii "try\x7b$resp = & " ++ python ++ ascii " -m velo_transfer.guest_cli --request-file " ++ quoted ++
    ascii " 2>$err | Where-Object \x7b$null -ne $_\x7d;$rc=$LASTEXITCODE\x7dfinally\x7bPop-Location\x7d;" ++
    ascii "$resp;if($rc -ne 0)\x7bexit $rc\x7d;" ++
    ascii "Remove-Item -LiteralPath $err -ErrorAction SilentlyContinue")

/-- `cleanup_script`. -/
def cleanupScript (path identity : Text) : Except String Text := do
  let quoted ← literal path
  let owner ← checkedIdentity identity
  let setup ← identitySetup
  bounded (ascii "$p=" ++ quoted ++ ascii ";$id=" ++ owner ++ ascii ";" ++ setup ++
    ascii "[VeloRequestIdentity]::DeleteOwned($p,$id);'ACK:deleted'")

inductive Command where
  | create
  | write (offset : Nat) (raw : Bytes) (identity : Text)
  | verify (size : Nat) (sha256 identity : Text)
  | invoke (identity : Text)
  | cleanup (identity : Text)

/-- The text of a command, of one request. -/
def Command.script (d : Deployment) (path : Text) : Command → Except String Text
  | .create => createScript path
  | .write offset raw identity => writeScript path offset raw identity
  | .verify size sha256 identity => verifyScript path size sha256 identity
  | .invoke identity => invokeScript d path identity
  | .cleanup identity => cleanupScript path identity

/-! ## The guest -/

/-- A file, or what else the path of a request may name. -/
structure RequestNode where
  identity : Text
  isReparsePoint : Bool
  links : Nat
  bytes : Bytes

/-- The guest, as far as one request is concerned.  `others` is what others put at the
    path and have not taken away; `used`, `created` and `runs` tell what ever happened:
    the identities of files, those of the files that commands made, and the bytes that the
    helper was run on. -/
structure Guest (γ : Type) where
  node : Option RequestNode
  others : Option RequestNode
  used : List Text
  created : List Text
  service : γ
  runs : List Bytes

/-- What a command meets where it is run: the identity of a new file, and a fault that
    stops the script after some progress. -/
structure Chance where
  identity : Text
  fault : Option Nat

/-- What a script prints, and its exit code. -/
structure Printed where
  stdout : Text
  status : Int

section Guest

variable {γ : Type}

/-- The request file with this identity, which is a plain file with one link. -/
def Guest.owned (g : Guest γ) (identity : Text) : Option RequestNode :=
  match g.node with
  | none => none
  | some node =>
      if node.isReparsePoint = false ∧ node.links = 1 ∧ node.identity = identity then some node else none

def Guest.put (g : Guest γ) (node : RequestNode) (bytes : Bytes) : Guest γ :=
  { g with node := some { node with bytes := bytes } }

def acknowledged (text : Text) : Option Printed := some { stdout := text ++ [13, 10], status := 0 }

def ackCreated (identity : Text) : Text := ascii "ACK:created:" ++ identity

def ackWritten (offset : Nat) (raw : Bytes) : Text :=
  ascii "ACK:" ++ decimal offset ++ 58 :: (decimal raw.length ++ 58 :: hexdigest raw)

def ACK_VERIFIED : Text := ascii "ACK:verified"

def ACK_DELETED : Text := ascii "ACK:deleted"

/-- A new file, where the path names nothing. -/
def Guest.create (g : Guest γ) (chance : Chance) : Guest γ × Option Printed :=
  if g.node.isSome = true ∨ chance.identity ∈ g.used ∨ happened chance.fault = false then (g, none)
  else
    let made := { g with
      node := some { identity := chance.identity, isReparsePoint := false, links := 1, bytes := [] }
      used := chance.identity :: g.used
      created := chance.identity :: g.created }
    (made, if chance.fault = none then acknowledged (ackCreated chance.identity) else none)

/-- The piece is appended where the file ends, or is there already. -/
def Guest.write (g : Guest γ) (chance : Chance) (offset : Nat) (raw : Bytes) (identity : Text) :
    Guest γ × Option Printed :=
  match g.owned identity with
  | none => (g, none)
  | some node =>
      if node.bytes.length = offset then
        match chance.fault with
        | none => (g.put node (node.bytes ++ raw), acknowledged (ackWritten offset raw))
        | some progress => (g.put node (node.bytes ++ raw.take progress), none)
      else if offset + raw.length ≤ node.bytes.length ∧ (node.bytes.drop offset).take raw.length = raw ∧
          chance.fault = none then (g, acknowledged (ackWritten offset raw))
      else (g, none)

def Guest.verify (g : Guest γ) (chance : Chance) (size : Nat) (sha256 identity : Text) :
    Guest γ × Option Printed :=
  match g.owned identity with
  | none => (g, none)
  | some node =>
      if node.bytes.length = size ∧ hexdigest node.bytes = sha256 ∧ chance.fault = none then
        (g, acknowledged ACK_VERIFIED)
      else (g, none)

/-- The helper is run on the file, unless a fault comes before. -/
def Guest.invoke (helper : γ → Bytes → γ × Printed) (g : Guest γ) (chance : Chance) (identity : Text) :
    Guest γ × Option Printed :=
  match g.owned identity with
  | none => (g, none)
  | some node =>
      if happened chance.fault then
        let answer := helper g.service node.bytes
        ({ g with service := answer.1, runs := g.runs ++ [node.bytes] },
          if chance.fault = none then some answer.2 else none)
      else (g, none)

def Guest.cleanup (g : Guest γ) (chance : Chance) (identity : Text) : Guest γ × Option Printed :=
  match g.owned identity with
  | none => (g, none)
  | some _ =>
      if happened chance.fault then
        ({ g with node := none }, if chance.fault = none then acknowledged ACK_DELETED else none)
      else (g, none)

/-- A command is run; nothing is printed where the script throws. -/
def Guest.run (helper : γ → Bytes → γ × Printed) (g : Guest γ) (chance : Chance) :
    Command → Guest γ × Option Printed
  | .create => g.create chance
  | .write offset raw identity => g.write chance offset raw identity
  | .verify size sha256 identity => g.verify chance size sha256 identity
  | .invoke identity => g.invoke helper chance identity
  | .cleanup identity => g.cleanup chance identity

/-- Others replace what the path names, or take it away; no two files have one identity. -/
def Guest.swap (g : Guest γ) : Option RequestNode → Guest γ
  | none => { g with node := none, others := none }
  | some node =>
      if node.identity ∈ g.used then g
      else { g with node := some node, others := some node, used := node.identity :: g.used }

end Guest

/-! ## What the host makes of an answer -/

/-- The answer of the tool that runs commands. -/
structure ToolResult where
  isError : Bool
  content : List (Bool × Text)

/-- What the tool answers for a script, which fails where it throws. -/
def resultOf (thrown : Text) (printed : Option Printed) : ToolResult :=
  match printed with
  | none => { isError := false, content := [(true, ascii "Response: " ++ (thrown ++ ascii "\nStatus Code: 1"))] }
  | some p =>
      { isError := false
        content := [(true, ascii "Response: " ++ (p.stdout ++ (ascii "\nStatus Code: " ++ renderInt p.status)))] }

/-- What follows a text, where it is at the head. -/
def after : Text → Text → Option Text
  | [], cs => some cs
  | p :: ps, c :: cs => if p = c then after ps cs else none
  | _ :: _, [] => none

/-- `-?[0-9]+` -/
def isStatus : Text → Bool
  | [] => false
  | c :: cs => if c = 45 then !cs.isEmpty && cs.all isDigit else (c :: cs).all isDigit

/-- `int`, of a status. -/
def statusOf : Text → Int
  | [] => 0
  | c :: cs => if c = 45 then -(ofDigits 0 cs : Int) else (ofDigits 0 (c :: cs) : Int)

/-- As many characters as `int` reads at most, of a status. -/
def MAX_STATUS_DIGITS : Nat := 4300

/-- The longest body that a status line follows, and its status. -/
def splitStatus : Text → Option (Text × Text)
  | [] => none
  | c :: cs =>
      match splitStatus cs with
      | some (body, digits) => some (c :: body, digits)
      | none =>
          match after (ascii "\nStatus Code: ") (c :: cs) with
          | some digits => if isStatus digits then some ([], digits) else none
          | none => none

/-- `parse_outer_status`. -/
def parseOuterStatus (result : ToolResult) : Except String (Text × Int) :=
  match result.isError, result.content with
  | false, [(true, text)] =>
      match encodeUtf8 text with
      | none => .error "UnicodeEncodeError"
      | some raw =>
          if raw.length > 4 * 1024 * 1024 + 128 then .error "powershell_response"
          else match (after (ascii "Response: ") text).bind splitStatus with
            | none => .error "powershell_response"
            | some (stdout, digits) =>
                if (digits.filter isDigit).length > MAX_STATUS_DIGITS then .error "int" else .ok (stdout, statusOf digits)
  | _, _ => .error "powershell_error"

/-- `value[:-2]` and `value[:-1]`, of a line end. -/
def chomp (value : Text) : Text :=
  if [13, 10] <:+ value then value.dropLast.dropLast else if [10] <:+ value then value.dropLast else value

/-- `_single_line`. -/
def singleLine (value : Text) (code : String) : Except String Text :=
  if 13 ∈ chomp value ∨ 10 ∈ chomp value then .error code else .ok (chomp value)

/-- `parse_outer`. -/
def parseOuter (result : ToolResult) : Except String Text := do
  let (body, status) ← parseOuterStatus result
  if status ≠ 0 then .error "powershell_exit" else singleLine body "powershell_response"

def isLower (c : Nat) : Bool := 97 ≤ c && c ≤ 122

/-- `[a-z][a-z0-9_]{0,79}` -/
def isErrorCode : Text → Bool
  | [] => false
  | c :: cs => isLower c && decide (cs.length ≤ 79) && cs.all fun c => isLower c || isDigit c || c == 95

/-- What the helper told the host: an error of its own, or nothing that is understood. -/
inductive HelperError where
  | guest (code : Text)
  | invalid

/-- The error of the helper, with the exit codes that it may have. -/
def helperError (status : Int) (error : Json) : HelperError :=
  match error with
  | .str code =>
      if isErrorCode code = false ∨ (status ≠ 3 ∧ status ≠ 4) ∨ (status = 3 ∧ code ≠ ascii "internal_error") then
        .invalid
      else .guest code
  | _ => .invalid

def isText (v : Json) (text : String) : Bool :=
  match v with
  | .str s => s == ascii text
  | _ => false

/-- The fields of an answer of the helper. -/
def helperPayload (status : Int) (payload : List (Text × Json)) : Except HelperError (List (Text × Json)) :=
  if isText (field payload "status") "error" = true ∧ hasKeys payload ["status", "error"] = true then
    .error (helperError status (field payload "error"))
  else if status ≠ 0 ∨ isText (field payload "status") "success" = false ∨
      hasKeys payload ["status", "result"] = false then .error .invalid
  else match field payload "result" with
    | .obj result => .ok result
    | _ => .error .invalid

/-- `parse_helper`. -/
def parseHelper (stdout : Text) (status : Int) : Except HelperError (List (Text × Json)) :=
  match singleLine stdout "helper_response" with
  | .error _ => .error .invalid
  | .ok line =>
      match encodeUtf8 line with
      | none => .error .invalid
      | some raw =>
          if raw.length > 4 * 1024 * 1024 then .error .invalid
          else match parseDocument line with
            | .ok (.obj payload) => helperPayload status payload
            | _ => .error .invalid

/-! ## What was printed is what is read -/

theorem after_append (ps cs : Text) : after ps (ps ++ cs) = some cs := by
  induction ps with
  | nil => rfl
  | cons p ps ih =>
      show (if p = p then after ps (ps ++ cs) else none) = some cs
      rw [if_pos rfl, ih]

theorem isStatus_digits {ds : Text} (hne : ds ≠ []) (hds : ∀ c ∈ ds, isDigit c = true) :
    isStatus ds = true ∧ statusOf ds = (ofDigits 0 ds : Int) := by
  cases ds with
  | nil => exact absurd rfl hne
  | cons c cs =>
      have hc : c ≠ 45 := by
        rintro rfl
        exact absurd (hds 45 List.mem_cons_self) (by decide)
      rw [isStatus, statusOf, if_neg hc, if_neg hc]
      exact ⟨List.all_eq_true.mpr hds, rfl⟩

/-- An exit code is read as what it is. -/
theorem statusOf_renderInt (i : Int) : isStatus (renderInt i) = true ∧ statusOf (renderInt i) = i := by
  have hdigits := decimal_digits i.natAbs
  have hne : decimal i.natAbs ≠ [] := by
    obtain ⟨c, cs, heq, -⟩ := decimal_cons i.natAbs
    rw [heq]
    exact nofun
  unfold renderInt
  by_cases hi : i < 0
  · rw [if_pos hi]
    rw [isStatus, statusOf, if_pos rfl, if_pos rfl, ofDigits_decimal]
    refine ⟨?_, by omega⟩
    rw [Bool.and_eq_true, Bool.not_eq_true', List.isEmpty_eq_false_iff]
    exact ⟨hne, List.all_eq_true.mpr hdigits⟩
  · rw [if_neg hi]
    obtain ⟨hstatus, hvalue⟩ := isStatus_digits hne hdigits
    rw [hvalue, ofDigits_decimal]
    exact ⟨hstatus, by omega⟩

/-- No status line begins where no line ends. -/
theorem splitStatus_none {cs : Text} (h : 10 ∉ cs) : splitStatus cs = none := by
  induction cs with
  | nil => rfl
  | cons c cs ih =>
      have hc : ¬ 10 = c := fun heq => h (heq ▸ List.mem_cons_self)
      have hafter : after (ascii "\nStatus Code: ") (c :: cs) = none := by
        show (if 10 = c then _ else none) = none
        rw [if_neg hc]
      unfold splitStatus
      rw [ih (fun hmem => h (List.mem_cons_of_mem _ hmem)), hafter]

/-- Whatever was printed, the status line behind it is the one that is read. -/
theorem splitStatus_append (body : Text) {digits : Text} (hstatus : isStatus digits = true) (hline : 10 ∉ digits) :
    splitStatus (body ++ (ascii "\nStatus Code: " ++ digits)) = some (body, digits) := by
  induction body with
  | nil =>
      have hrest : splitStatus (ascii "Status Code: " ++ digits) = none := by
        refine splitStatus_none (fun hmem => ?_)
        rcases List.mem_append.mp hmem with hmem | hmem
        · exact absurd hmem (by decide)
        · exact hline hmem
      show splitStatus (10 :: (ascii "Status Code: " ++ digits)) = _
      unfold splitStatus
      rw [hrest]
      dsimp only
      rw [show after (ascii "\nStatus Code: ") (10 :: (ascii "Status Code: " ++ digits)) = some digits
        from after_append (ascii "\nStatus Code: ") digits]
      dsimp only
      rw [if_pos hstatus]
  | cons c body ih =>
      show splitStatus (c :: (body ++ (ascii "\nStatus Code: " ++ digits))) = _
      unfold splitStatus
      rw [ih]

theorem renderInt_line (i : Int) : 10 ∉ renderInt i := by
  have hdigits : 10 ∉ decimal i.natAbs := fun hmem => absurd (decimal_digits _ _ hmem) (by decide)
  unfold renderInt
  split
  · exact fun hmem => (List.mem_cons.mp hmem).elim (by decide) hdigits
  · exact hdigits

/-- What the host reads of an answer is what was printed, and the exit code. -/
theorem parseOuterStatus_text {text stdout stdout' : Text} {status status' : Int}
    (htext : text = ascii "Response: " ++ (stdout ++ (ascii "\nStatus Code: " ++ renderInt status)))
    (h : parseOuterStatus { isError := false, content := [(true, text)] } = .ok (stdout', status')) :
    stdout' = stdout ∧ status' = status := by
  obtain ⟨hstatus, hvalue⟩ := statusOf_renderInt status
  have hsplit : (after (ascii "Response: ") text).bind splitStatus = some (stdout, renderInt status) := by
    rw [htext, after_append]
    exact splitStatus_append stdout hstatus (renderInt_line status)
  unfold parseOuterStatus at h
  dsimp only at h
  rw [hsplit] at h
  split at h
  · exact absurd h nofun
  · split at h
    · exact absurd h nofun
    · dsimp only at h
      split at h
      · exact absurd h nofun
      · rw [hvalue] at h
        cases h
        exact ⟨rfl, rfl⟩

theorem parseOuterStatus_printed {thrown stdout : Text} {p : Printed} {status : Int}
    (h : parseOuterStatus (resultOf thrown (some p)) = .ok (stdout, status)) :
    stdout = p.stdout ∧ status = p.status :=
  parseOuterStatus_text rfl h

theorem parseOuterStatus_thrown {thrown stdout : Text} {status : Int}
    (h : parseOuterStatus (resultOf thrown none) = .ok (stdout, status)) : status = 1 := by
  have htext : ascii "Response: " ++ (thrown ++ ascii "\nStatus Code: 1") =
      ascii "Response: " ++ (thrown ++ (ascii "\nStatus Code: " ++ renderInt 1)) := rfl
  exact (parseOuterStatus_text htext h).2

/-- An answer that is read as a line was printed by a script that ended well. -/
theorem parseOuter_ok {thrown line : Text} {printed : Option Printed}
    (h : parseOuter (resultOf thrown printed) = .ok line) : ∃ p, printed = some p ∧ line = chomp p.stdout := by
  unfold parseOuter at h
  cases hstatus : parseOuterStatus (resultOf thrown printed) with
  | error e =>
      rw [hstatus] at h
      exact absurd h nofun
  | ok answer =>
      obtain ⟨stdout, status⟩ := answer
      rw [hstatus] at h
      change (if status ≠ 0 then Except.error "powershell_exit" else singleLine stdout "powershell_response") = .ok line at h
      cases printed with
      | none =>
          rw [if_pos (by rw [parseOuterStatus_thrown hstatus]; decide)] at h
          exact absurd h nofun
      | some p =>
          obtain ⟨rfl, rfl⟩ := parseOuterStatus_printed hstatus
          split at h
          · exact absurd h nofun
          · unfold singleLine at h
            split at h
            · exact absurd h nofun
            · exact ⟨p, rfl, (Except.ok.inj h).symm⟩

theorem chomp_line (text : Text) : chomp (text ++ [13, 10]) = text := by
  unfold chomp
  rw [if_pos (List.suffix_append text [13, 10])]
  have hsplit : text ++ [13, 10] = (text ++ [13]) ++ [10] := by rw [List.append_assoc]; rfl
  rw [hsplit, List.dropLast_concat, List.dropLast_concat]

end ControlChannel
