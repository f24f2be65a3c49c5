import Mathlib.Data.List.AList
import Mathlib.Data.List.Sort
import ShinzoGenerator.Lib.Attempt
import ShinzoGenerator.Lib.Hex

/-! Where the node identity comes from. A start copies an older keyring, imports a
plaintext key and generates a new identity only when nothing was found; it may be cut
before any file operation, and in the middle of copying a file. -/

set_option autoImplicit false

namespace ShinzoGenerator.Defradb

abbrev Bytes := List UInt8

def asBytes (text : String) : Bytes := text.toList.map fun char => UInt8.ofNat char.toNat

/-! ### Paths -/

/-- A path without empty, dot and inner dot-dot elements. -/
structure FilePath where
  rooted : Bool
  elements : List String
deriving DecidableEq

/-- Adds one element to the reversed elements of a clean path. -/
def FilePath.push (rooted : Bool) (elements : List String) (element : String) : List String :=
  if element = "" ∨ element = "." then elements
  else if element = ".." then
    match elements with
    | [] => if rooted then [] else [".."]
    | last :: rest => if last = ".." then ".." :: last :: rest else rest
  else element :: elements

/-- The elements between slashes. -/
def FilePath.split (path : String) : List String :=
  (path.toList.splitOn '/').map String.ofList

def FilePath.ofElements (path : String) (elements : List String) : FilePath :=
  let rooted := path.toList.head? = some '/'
  ⟨rooted, (elements.foldl (push rooted) []).reverse⟩

/-- `filepath.Clean`. -/
def FilePath.clean (path : String) : FilePath := ofElements path (split path)

/-- `filepath.Dir`. -/
def FilePath.dir (path : String) : FilePath := ofElements path (split path).dropLast

/-- `filepath.Join` with one proper element. -/
def FilePath.join (path : FilePath) (name : String) : FilePath :=
  { path with elements := path.elements ++ [name] }

def FilePath.text (path : FilePath) : String :=
  if path.elements = [] then (if path.rooted then "/" else ".")
  else (if path.rooted then "/" else "") ++ "/".intercalate path.elements

/-! ### Files -/

structure File where
  data : Bytes
  mode : Nat
deriving DecidableEq

inductive Node where
  | file (file : File)
  | directory
deriving DecidableEq

def Node.isDir : Node → Bool
  | .file _ => false
  | .directory => true

/-- The directories by their paths; one that is not there is empty. -/
structure Disk where
  directory : FilePath → AList fun _ : String => Node

def Disk.lookup (disk : Disk) (dir : FilePath) (name : String) : Option Node :=
  (disk.directory dir).lookup name

def Disk.put (disk : Disk) (dir : FilePath) (name : String) (node : Node) : Disk where
  directory := Function.update disk.directory dir ((disk.directory dir).insert name node)

def Disk.append (disk : Disk) (dir : FilePath) (name : String) (byte : UInt8) : Disk :=
  match disk.lookup dir name with
  | some (.file file) => disk.put dir name (.file { file with data := file.data ++ [byte] })
  | _ => disk

/-- The data of a regular file. -/
def Disk.data (disk : Disk) (dir : FilePath) (name : String) : Option Bytes :=
  match disk.lookup dir name with
  | some (.file file) => some file.data
  | _ => none

/-- `clock` counts the file operations that are left before the crash. -/
structure Machine where
  disk : Disk
  clock : Nat
  /-- This start has generated an identity. -/
  generated : Bool := false

inductive Failure where
  | crashed
  | error (text : String)
deriving DecidableEq

def Failure.wrap (context : String) : Failure → Failure
  | .crashed => .crashed
  | .error text => .error (context ++ text)

abbrev Start (α : Type) := Attempt Machine Failure α

namespace Start

def error {α : Type} (text : String) : Start α := Attempt.fail (.error text)

/-- Every file operation begins here, or not at all. -/
def operation : Start Unit := fun machine =>
  match machine.clock with
  | 0 => (.error .crashed, machine)
  | clock + 1 => (.ok (), { machine with clock })

def write (update : Disk → Disk) : Start Unit :=
  Attempt.change fun machine => { machine with disk := update machine.disk }

/-- Whether `os.Stat` finds something. -/
def stat (dir : FilePath) (name : String) : Start Bool := do
  operation
  let machine ← Attempt.read
  pure (machine.disk.lookup dir name).isSome

def readFile (dir : FilePath) (name : String) : Start File := do
  operation
  let machine ← Attempt.read
  match machine.disk.lookup dir name with
  | none => error ("open " ++ (dir.join name).text ++ ": no such file or directory")
  | some .directory => error ("read " ++ (dir.join name).text ++ ": is a directory")
  | some (.file file) => pure file

/-- The entries by name, and which of them are directories. -/
def readDir (dir : FilePath) : Start (List (String × Bool)) := do
  operation
  let machine ← Attempt.read
  pure (((machine.disk.directory dir).entries.map fun entry => (entry.1, entry.2.isDir)).insertionSort
    fun left right => left.1 ≤ right.1)

def appendBytes (dir : FilePath) (name : String) : Bytes → Start Unit
  | [] => pure ()
  | byte :: rest => do
      operation
      write (·.append dir name byte)
      appendBytes dir name rest

/-- `os.WriteFile` truncates or creates the file, then its bytes follow. -/
def writeFile (dir : FilePath) (name : String) (data : Bytes) (mode : Nat) : Start Unit := do
  operation
  write (·.put dir name (.file ⟨[], mode⟩))
  appendBytes dir name data

end Start

/-! ### Libraries -/

/-- The file keyring encrypts each entry with the secret, into a file of its name. -/
structure FileKeyring where
  encrypt : String → Nat → Bytes → Bytes
  decrypt : String → Bytes → Except String Bytes
  mode : Nat
  decrypt_encrypt : ∀ secret entropy data, decrypt secret (encrypt secret entropy data) = .ok data

/-- Identities and their private keys. The raw bytes of a key restore its identity. -/
structure IdentityLibrary (PrivateKey Identity : Type) where
  privateKeyFromBytes : Bytes → Bytes → Except String PrivateKey
  fromPrivateKey : PrivateKey → Except String Identity
  privateKey : Identity → Option PrivateKey
  keyType : PrivateKey → Bytes
  raw : PrivateKey → Bytes
  generate : Nat → Except String Identity
  plainType : ∀ key, 58 ∉ keyType key
  restores : ∀ identity key, privateKey identity = some key →
    privateKeyFromBytes (keyType key) (raw key) = .ok key ∧ fromPrivateKey key = .ok identity

def nodeIdentityKeyName : String := "node-identity-key"

def keyringDirName : String := "keys"

def plaintextIdentityFileName : String := "defra_identity.key"

def secp256k1 : Bytes := asBytes "secp256k1"

structure KeyConfig where
  storePath : String
  keyringSecret : String

def keyringPathFor (storePath : String) : FilePath :=
  if storePath = "" then (FilePath.clean "").join keyringDirName
  else (FilePath.dir storePath).join keyringDirName

def legacyPathFor (storePath : String) : FilePath :=
  (FilePath.clean storePath).join keyringDirName

variable {PrivateKey Identity : Type} (keyring : FileKeyring)
  (library : IdentityLibrary PrivateKey Identity) (config : KeyConfig)

def KeyConfig.keyringPath : FilePath := keyringPathFor config.storePath

/-- `kr.Get`; nothing stands for `ErrNotFound`. -/
def FileKeyring.get (name : String) : Start (Option Bytes) := do
  Start.operation
  let machine ← Attempt.read
  match machine.disk.lookup config.keyringPath name with
  | none => pure none
  | some .directory =>
      Start.error ("read " ++ (config.keyringPath.join name).text ++ ": is a directory")
  | some (.file file) =>
      match keyring.decrypt config.keyringSecret file.data with
      | .ok data => pure (some data)
      | .error text => Start.error text

/-- `kr.Set` replaces the entry at once. -/
def FileKeyring.set (entropy : Nat) (name : String) (data : Bytes) : Start Unit := do
  Start.operation
  Start.write (·.put config.keyringPath name
    (.file ⟨keyring.encrypt config.keyringSecret entropy data, keyring.mode⟩))

/-! ### Migration of the in-store keyring -/

def ensureNoKeyConflict (legacyPath keyringPath : FilePath) : Start Unit := do
  let legacyData ← (Start.readFile legacyPath nodeIdentityKeyName).mapError
    (.wrap "failed to read legacy keyring entry: ")
  let newData ← (Start.readFile keyringPath nodeIdentityKeyName).mapError
    (.wrap "failed to read keyring entry: ")
  if legacyData.data = newData.data then pure ()
  else
    Start.error ("conflicting node identity keys: " ++
      (legacyPath.join nodeIdentityKeyName).text ++ " and " ++
      (keyringPath.join nodeIdentityKeyName).text ++
      " hold different contents; refusing to start on an ambiguous identity")

def copyKeyringFile (source target : FilePath) (name : String) : Start Unit := do
  let file ← Start.readFile source name
  let info ← Start.readFile source name
  Start.writeFile target name file.data info.mode

/-- The loop over the entries of the legacy directory. -/
def copyEntries (legacyPath keyringPath : FilePath) : List (String × Bool) → Start Unit
  | [] => pure ()
  | (name, isDir) :: rest =>
      if isDir then copyEntries legacyPath keyringPath rest
      else do
        let present ← Start.stat keyringPath name
        if present then copyEntries legacyPath keyringPath rest
        else do
          (copyKeyringFile legacyPath keyringPath name).mapError
            (.wrap ("failed to copy keyring entry " ++ name ++ ": "))
          copyEntries legacyPath keyringPath rest

def migrateKeyringDir (storePath : String) (keyringPath : FilePath) : Start Unit :=
  if storePath = "" then pure ()
  else if legacyPathFor storePath = keyringPath then pure ()
  else do
    let legacy ← Start.stat (legacyPathFor storePath) nodeIdentityKeyName
    if legacy then do
      let present ← Start.stat keyringPath nodeIdentityKeyName
      if present then ensureNoKeyConflict (legacyPathFor storePath) keyringPath
      else do
        let entries ← Start.readDir (legacyPathFor storePath)
        copyEntries (legacyPathFor storePath) keyringPath entries
    else pure ()

/-! ### Identities in bytes -/

/-- The encodings of Unicode's white space. -/
def whiteSpace : List Bytes :=
  [[9], [10], [11], [12], [13], [32], [0xc2, 0x85], [0xc2, 0xa0], [0xe1, 0x9a, 0x80]] ++
    (List.range 11).map (fun i => [0xe2, 0x80, UInt8.ofNat (0x80 + i)]) ++
    [[0xe2, 0x80, 0xa8], [0xe2, 0x80, 0xa9], [0xe2, 0x80, 0xaf], [0xe2, 0x81, 0x9f],
      [0xe3, 0x80, 0x80]]

/-- Drops encodings from the front, at most as often as the first argument says. -/
def trimFront (encodings : List Bytes) : Nat → Bytes → Bytes
  | 0, bytes => bytes
  | limit + 1, bytes =>
      match encodings.find? (·.isPrefixOf bytes) with
      | some found => trimFront encodings limit (bytes.drop found.length)
      | none => bytes

/-- `strings.TrimSpace`. -/
def trimSpace (bytes : Bytes) : Bytes :=
  let front := trimFront whiteSpace bytes.length bytes
  (trimFront (whiteSpace.map List.reverse) front.length front.reverse).reverse

def decodeHex (bytes : Bytes) : Option Bytes :=
  Hex.decode (bytes.map fun byte => Char.ofNat byte.toNat)

/-- The identity of a plaintext key file; what fails is only logged. -/
def fullIdentityFromHexFile (data : Bytes) : Option Identity := do
  let keyBytes ← decodeHex (trimSpace data)
  let key ← (library.privateKeyFromBytes secp256k1 keyBytes).toOption
  (library.fromPrivateKey key).toOption

/-- The prefixed format: the type of the key, a colon and the raw key. -/
def identityBytes (key : PrivateKey) : Bytes := library.keyType key ++ 58 :: library.raw key

def loadIdentityFromBytes (identityBytes : Bytes) : Except String Identity := do
  let prefixed := if 58 ∈ identityBytes then identityBytes else secp256k1 ++ 58 :: identityBytes
  let sepPos := prefixed.idxOf 58
  let key ← (library.privateKeyFromBytes (prefixed.take sepPos) (prefixed.drop (sepPos + 1))).mapError
    ("failed to reconstruct private key: " ++ ·)
  (library.fromPrivateKey key).mapError ("failed to reconstruct identity from private key: " ++ ·)

def saveNodeIdentityToKeyring (entropy : Nat) (identity : Identity) : Start Unit :=
  match library.privateKey identity with
  | none => Start.error "failed to get private key from identity"
  | some key =>
      if library.raw key = [] then Start.error "private key has no raw bytes"
      else (keyring.set config entropy nodeIdentityKeyName (identityBytes library key)).mapError
        (.wrap "failed to save identity to keyring: ")

/-! ### Opening and loading -/

def importPlaintextIdentity (entropy : Nat) : Start Unit :=
  if config.storePath = "" then pure ()
  else do
    let storeDir := FilePath.clean config.storePath
    let present ← Start.stat storeDir plaintextIdentityFileName
    if present then do
      let held ← (keyring.get config nodeIdentityKeyName).mapError
        (.wrap "failed to inspect keyring: ")
      if held.isSome then pure ()
      else do
        Start.operation
        let machine ← Attempt.read
        let data := machine.disk.data storeDir plaintextIdentityFileName
        match data.bind (fullIdentityFromHexFile library) with
        | none => pure ()
        | some identity => saveNodeIdentityToKeyring keyring library config entropy identity
    else pure ()

def openKeyring (entropy : Nat) : Start Unit :=
  if config.keyringSecret = "" then
    Start.error "KeyringSecret is required for keyring-based key management"
  else do
    Start.operation
    (migrateKeyringDir config.storePath config.keyringPath).mapError
      (.wrap "failed to migrate keyring: ")
    Start.operation
    (importPlaintextIdentity keyring library config entropy).mapError
      (.wrap "failed to import legacy plaintext identity: ")

/-- Generates an identity and saves it. -/
def createIdentity (entropy : Nat) : Start Identity := do
  Attempt.change fun machine => { machine with generated := true }
  match library.generate entropy with
  | .error text => Start.error ("failed to generate new identity: " ++ text)
  | .ok identity =>
      (saveNodeIdentityToKeyring keyring library config entropy identity).mapError
        (.wrap "failed to save identity to keyring: ")
      pure identity

def getOrCreateNodeIdentity (entropy : Nat) : Start Identity := do
  (openKeyring keyring library config entropy).mapError (.wrap "failed to open keyring: ")
  let held ← (keyring.get config nodeIdentityKeyName).mapError
    (.wrap "failed to get identity from keyring: ")
  match held with
  | none => createIdentity keyring library config entropy
  | some data =>
      match loadIdentityFromBytes library data with
      | .ok identity => pure identity
      | .error text => Start.error text

/-! ### Restarts -/

/-- One start: when it crashes, if at all, and the randomness it meets. -/
structure Launch where
  clock : Nat
  entropy : Nat

structure Report (Identity : Type) where
  before : Disk
  outcome : Except Failure Identity
  generated : Bool
  after : Disk

def launch (disk : Disk) (start : Launch) : Report Identity :=
  let (outcome, machine) :=
    (getOrCreateNodeIdentity keyring library config start.entropy).run ⟨disk, start.clock, false⟩
  ⟨disk, outcome, machine.generated, machine.disk⟩

/-- The reports of starts one after the other. -/
def restarts (disk : Disk) : List Launch → List (Report Identity)
  | [] => []
  | start :: rest =>
      let report := launch keyring library config disk start
      report :: restarts report.after rest

end ShinzoGenerator.Defradb
