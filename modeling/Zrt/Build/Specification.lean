import Zrt.Crash
import Mathlib.Data.List.Infix
import Zrt.Lts

/-! `build.rs` of `st-zrt-sys`: ONNX Runtime acquired into `OUT_DIR`, one file operation a step. -/
namespace Zrt.Build

open Crash (Prog)

abbrev Bytes := List UInt8

abbrev Path := List String

inductive Node where
  | dir
  | file (content : Bytes)
  | link (target : String)
  deriving DecidableEq

/-- A file of which only the beginning is written. -/
def Node.partly : Node → Nat → Node
  | .file content, n => .file (content.take n)
  | node, _ => node

/-- What a directory holds, by paths relative to it; a directory is there also through what it
holds. -/
abbrev Tree := List (Path × Node)

def Tree.paths (t : Tree) : List Path := t.map Prod.fst

def Tree.remove (t : Tree) (p : Path) : Tree := t.filter fun e => e.1 ≠ p

def Tree.put (t : Tree) (p : Path) (node : Node) : Tree := (p, node) :: t.remove p

def Tree.isDir (t : Tree) (p : Path) : Bool :=
  t.lookup p = some .dir || t.paths.any fun q => p <+: q ∧ p ≠ q

/-- `lib` is a directory of the tree. -/
def Tree.hasLib (t : Tree) : Bool := t.isDir ["lib"]

/-- `exists` of a file of `lib`, along at most `links` links. -/
def Tree.exists (t : Tree) : Nat → String → Bool
  | 0, _ => false
  | links + 1, name => match t.lookup ["lib", name] with
    | some (.link target) => Tree.exists t links target
    | some _ => true
    | none => t.isDir ["lib", name]

/-- The names in `lib` that start with `libonnxruntime.so.`. -/
def Tree.versions (t : Tree) : List String :=
  t.paths.filterMap fun p => match p with
    | dir :: name :: _ =>
      if dir = "lib" ∧ "libonnxruntime.so.".toList <+: name.toList then some name else none
    | _ => none

/-- `OUT_DIR` in the names that one asset has there; `requests` is history. -/
structure OutDir where
  part : Option Bytes
  archive : Option Bytes
  unpacked : Option Tree
  onnxruntime : Option Tree
  marker : Bool
  requests : Nat

def OutDir.hasLib (s : OutDir) : Bool := s.onnxruntime.any Tree.hasLib

structure Response where
  status : Nat
  body : Bytes

/-- What the script calls: the digest, the entries of an archive below the one directory it holds,
and the answers of the server in their order. -/
structure World where
  sha256 : Bytes → String
  untar : Bytes → Tree
  net : Nat → Response

/-- What an operation meets: whether it succeeds, whether it takes another step before it ends, how
much of a content it has written then, and a path for what the directory's order decides. -/
structure Outcome where
  ok : Bool
  more : Bool
  upto : Nat
  path : Path

abbrev Script (α : Type) := Prog OutDir Outcome α

/-- The slug, the extension and the pinned digest; `none` where the build panics. -/
def assetFor (target : String) (gpu : Bool) : Option (String × String × String) :=
  let contains (s : String) : Bool := s.toList <:+: target.toList
  if gpu then
    if contains "linux" && contains "x86_64" then
      some ("linux-x64-gpu_cuda13", "tgz",
        "844c64acfc43ab9423215c26493055ea229268e28283146cc644ecef0bdae048")
    else none
  else if contains "linux" && contains "x86_64" then
    some ("linux-x64", "tgz", "c3fddc4f139a045b0c4902c57410f0694f1c2fdf9b6939fbe38b1aeae7cd14ba")
  else if contains "linux" && contains "aarch64" then
    some ("linux-aarch64", "tgz",
      "e1799098ebc054b370f6176a450f158720f297818c613e5dc99b92e2ec82346f")
  else if contains "darwin" && contains "aarch64" then
    some ("osx-arm64", "tgz", "d0706fc34f315d8c88639d0a8c81f2e09e815f282cabed3493c06a054352cf92")
  else none

def downloadAttempts : Nat := 3

variable (w : World)

def removePart (s : OutDir) (o : Outcome) : Option OutDir :=
  if o.ok then some { s with part := none } else none

def createPart (s : OutDir) (o : Outcome) : Option OutDir :=
  if o.ok then some { s with part := some [] } else none

/-- `io::copy` and the flush behind it. -/
def copyBody (body : Bytes) (s : OutDir) (o : Outcome) : OutDir × Option Bool :=
  if !o.ok then (s, some false)
  else if o.more then ({ s with part := some (body.take o.upto) }, none)
  else ({ s with part := some body }, some true)

/-- An operation that changes nothing: opening a file, `sync_all`, the end of an archive. -/
def untouched (s : OutDir) (o : Outcome) : Option OutDir := if o.ok then some s else none

/-- The answer to a request, if there is one. -/
def request : Script (Option Response) :=
  .op fun s o =>
    ({ s with requests := s.requests + 1 }, if o.ok then some (w.net s.requests) else none)

/-- Writes a body to `.part`. -/
def streamBody (body : Bytes) : Script Bool := do
  if ← .attempt createPart then
    if ← .loop (copyBody body) then .attempt untouched else pure false
  else pure false

def downloadOnce : Script Bool := do
  match ← request w with
  | none => pure false
  | some resp => if resp.status = 200 then streamBody resp.body else pure false

def renamePart (s : OutDir) (o : Outcome) : Option OutDir :=
  if o.ok && s.part.isSome then some { s with archive := s.part, part := none } else none

/-- The attempts that are left. -/
def downloadLoop : Nat → Script Unit
  | 0 => .abort
  | attempts + 1 => do
    if ← downloadOnce w then
      if ← .attempt renamePart then pure () else do
        let _ ← .attempt removePart
        .abort
    else do
      let _ ← .attempt removePart
      downloadLoop attempts

def downloadWithRetries : Script Unit := do
  let _ ← .attempt removePart
  downloadLoop w downloadAttempts

def sha256File : Script String := do
  match ← .op fun s o => (s, if o.ok then s.archive.map w.sha256 else none) with
  | some digest => pure digest
  | none => .abort

def removeArchive (s : OutDir) (o : Outcome) : Option OutDir :=
  if o.ok then some { s with archive := none } else none

/-- The digest of a cached archive that passes; one that does not is removed. -/
def verifyCached (expected : String) : Script (Option String) := do
  if ← .read fun s => s.archive.isSome then do
    let got ← sha256File w
    if got = expected then pure (some got) else do
      .expect removeArchive
      pure none
  else pure none

def acquireVerifiedArchive (expected : String) : Script String := do
  match ← verifyCached w expected with
  | some got => pure got
  | none => do
    downloadWithRetries w
    let got ← sha256File w
    if got = expected then pure got else .abort

/-- One entry written over what is there, a file piece by piece. -/
def unpackEntry (e : Path × Node) (s : OutDir) (o : Outcome) : OutDir × Option Bool :=
  let put (node : Node) := { s with unpacked := some (Tree.put (s.unpacked.getD []) e.1 node) }
  if !o.ok then (s, some false)
  else if o.more then (put (e.2.partly o.upto), none)
  else (put e.2, some true)

def unpackEntries : Tree → Script Unit
  | [] => .expect untouched
  | e :: rest => do
    if ← .loop (unpackEntry e) then unpackEntries rest else .abort

def extractTgz : Script Unit := do
  match ← .op fun s o => (s, if o.ok then s.archive else none) with
  | some archive => unpackEntries (w.untar archive)
  | none => .abort

def removeMarker (s : OutDir) (o : Outcome) : Option OutDir :=
  if o.ok then some { s with marker := false } else none

def createMarker (s : OutDir) (o : Outcome) : Option OutDir :=
  if o.ok then some { s with marker := true } else none

/-- `remove_dir_all`, one path after another in any order. -/
def removeDirAll (s : OutDir) (o : Outcome) : OutDir × Option Bool :=
  if !o.ok then (s, some false)
  else if o.more then ({ s with onnxruntime := s.onnxruntime.map fun t => t.remove o.path }, none)
  else ({ s with onnxruntime := none }, some true)

/-- The rename onto `onnxruntime`, which a directory that is not empty refuses. -/
def renameUnpacked (s : OutDir) (o : Outcome) : Option OutDir :=
  if o.ok && s.unpacked.isSome && (s.onnxruntime.getD []).isEmpty then
    some { s with onnxruntime := s.unpacked, unpacked := none }
  else none

/-- Whether this succeeds is not asked. -/
def removeExtracted : Script Unit := do
  if ← .read fun s => s.onnxruntime.isSome then do
    let _ ← .loop removeDirAll
    pure ()
  else pure ()

def install (expected : String) : Script Unit := do
  let _ ← .attempt removeMarker
  let _ ← acquireVerifiedArchive w expected
  removeExtracted
  extractTgz w
  .expect renameUnpacked
  let _ ← .attempt createMarker

/-- Nothing is acquired where the marker counts. -/
def provide (expected : String) : Script Unit := do
  if ← .read fun s => s.marker && s.hasLib then pure () else install w expected

def soName : String := "libonnxruntime.so"

/-- The links that a path may follow. -/
def linkLimit : Nat := 40

/-- The first version that `read_dir` lists, `path` if it is one. -/
def firstVersion (t : Tree) (path : Path) : Option String :=
  (t.versions.find? fun name => path = ["lib", name]).or t.versions.head?

def symlinkSo (version : String) (s : OutDir) (o : Outcome) : Option OutDir :=
  let t := s.onnxruntime.getD []
  if o.ok && (t.lookup ["lib", soName]).isNone && !t.isDir ["lib", soName] then
    some { s with onnxruntime := some (t.put ["lib", soName] (.link version)) }
  else none

/-- The unversioned name of the library, on Linux. -/
def linkVersion : Script Unit := do
  let t ← .read fun s => s.onnxruntime.getD []
  if t.exists linkLimit soName then pure () else do
    match ← .op fun s o => (s, if o.ok then some (firstVersion t o.path) else none) with
    | none => pure ()
    | some none => .abort
    | some (some version) => .expect (symlinkSo version)

/-- `main` without `DOCS_RS` and `ST_ZRT_ORT_PATH`. A build that ends here links `onnxruntime`. -/
def main (target : String) (gpu : Bool) : Script Unit :=
  match assetFor target gpu with
  | none => .abort
  | some (_, _, expected) => do
    provide w expected
    .ensure OutDir.hasLib
    if "linux".toList <:+: target.toList then linkVersion else pure ()

/-- What happens to an `OUT_DIR`: builds, each killed where its outcomes end; files that rot between
them; and the extracted directory wiped, with its `lib`. -/
inductive Event where
  | build (outcomes : List Outcome)
  | rot (archive part : Option Bytes)
  | wipe (onnxruntime : Option Tree) (marker : Bool)

def step (target : String) (gpu : Bool) (s : OutDir) : Event → OutDir
  | .build outcomes => (main w target gpu s outcomes).1
  | .rot archive part => { s with archive, part }
  | .wipe onnxruntime marker =>
    if onnxruntime.any Tree.hasLib then s
    else { s with onnxruntime, marker := s.marker && marker }

def OutDir.empty : OutDir := ⟨none, none, none, none, false, 0⟩

/-- One target and feature set, for which cargo keeps an `OUT_DIR` of its own. -/
def buildLts (target : String) (gpu : Bool) : Lts.System OutDir Event :=
  .ofNext (· = .empty) (step w target gpu)

abbrev Reachable (target : String) (gpu : Bool) (s : OutDir) : Prop :=
  Lts.Reachable (buildLts w target gpu) s

end Zrt.Build
