import ShinzoGenerator.Defradb.KeyringProperties

/-! Keys of the keyring in both formats: with the type of the key in front, as they are
saved now, and as the bare bytes that were saved before. -/

set_option autoImplicit false

namespace ShinzoGenerator.Defradb

variable {PrivateKey Identity : Type} {library : IdentityLibrary PrivateKey Identity}

/-- What `crypto` and `identity` document beyond the restoring of raw keys. -/
structure KeyTypes (library : IdentityLibrary PrivateKey Identity) (supported : List Bytes) :
    Prop where
  /-- An unknown key type is rejected. -/
  rejects : ∀ kind bytes, kind ∉ supported →
    ∃ text, library.privateKeyFromBytes kind bytes = .error text
  /-- A key is as long as the bytes it is read from. -/
  sized : ∀ kind ∈ supported, ∀ bytes key, library.privateKeyFromBytes kind bytes = .ok key →
    (library.raw key).length = bytes.length
  /-- An identity keeps the private key it is made from. -/
  keeps : ∀ key identity, library.fromPrivateKey key = .ok identity →
    library.privateKey identity = some key

/-- The key is loaded from what is saved for it, and from its raw bytes. -/
structure LoadsBack (library : IdentityLibrary PrivateKey Identity) (identity : Identity)
    (key : PrivateKey) : Prop where
  saved : ∀ (keyring : FileKeyring) (config : KeyConfig) (entropy : Nat) (machine : Machine),
    0 < machine.clock →
      ∃ after entry,
        (saveNodeIdentityToKeyring keyring library config entropy identity).run machine =
          (.ok (), after) ∧
        siblingEntry config after.disk = some entry ∧
        keyring.decrypt config.keyringSecret entry = .ok (identityBytes library key)
  typed : loadIdentityFromBytes library (identityBytes library key) = .ok identity
  legacy : loadIdentityFromBytes library (library.raw key) = .ok identity

theorem save_succeeds {identity : Identity} {key : PrivateKey}
    (private_ : library.privateKey identity = some key) (bytes : library.raw key ≠ [])
    (keyring : FileKeyring) (config : KeyConfig) (entropy : Nat) {machine : Machine}
    (running : 0 < machine.clock) :
    ∃ after entry,
      (saveNodeIdentityToKeyring keyring library config entropy identity).run machine =
        (.ok (), after) ∧
      siblingEntry config after.disk = some entry ∧
      keyring.decrypt config.keyringSecret entry = .ok (identityBytes library key) := by
  obtain ⟨disk, clock, generated⟩ := machine
  cases clock with
  | zero => cases running
  | succ clock =>
    let entry := keyring.encrypt config.keyringSecret entropy (identityBytes library key)
    refine ⟨⟨disk.put config.keyringPath nodeIdentityKeyName (.file ⟨entry, keyring.mode⟩), clock,
      generated⟩, entry, ?_, ?_, keyring.decrypt_encrypt _ _ _⟩
    · simp only [saveNodeIdentityToKeyring, private_, if_neg bytes]
      rfl
    · simp only [siblingEntry, Disk.data, Disk.lookup_put_self]

/-- Without a colon the bytes are a key of the default type. -/
theorem load_legacy {identity : Identity} {key : PrivateKey}
    (private_ : library.privateKey identity = some key) (kind : library.keyType key = secp256k1)
    (plain : 58 ∉ library.raw key) :
    loadIdentityFromBytes library (library.raw key) = .ok identity := by
  have typed := load_identityBytes private_
  have colon : 58 ∈ secp256k1 ++ 58 :: library.raw key := by simp
  rw [identityBytes, kind] at typed
  simp only [loadIdentityFromBytes, if_pos colon] at typed
  simpa only [loadIdentityFromBytes, if_neg plain] using typed

/-- Bytes with a colon are never read as a key of their own length. -/
theorem load_colon {supported : List Bytes} (types : KeyTypes library supported)
    {bytes : Bytes} {identity : Identity} (colon : 58 ∈ bytes)
    (loaded : loadIdentityFromBytes library bytes = .ok identity) :
    ∃ key, library.privateKey identity = some key ∧ (library.raw key).length < bytes.length := by
  have position : bytes.idxOf 58 < bytes.length := List.idxOf_lt_length_iff.mpr colon
  simp only [loadIdentityFromBytes, if_pos colon, bind, Except.bind] at loaded
  cases read : library.privateKeyFromBytes (bytes.take (bytes.idxOf 58))
      (bytes.drop (bytes.idxOf 58 + 1)) with
  | error text => simp [read, Except.mapError] at loaded
  | ok key =>
    rw [read] at loaded
    cases restored : library.fromPrivateKey key with
    | error text => simp [restored, Except.mapError] at loaded
    | ok found =>
      simp only [restored, Except.mapError, Except.ok.injEq] at loaded
      subst loaded
      refine ⟨key, types.keeps key found restored, ?_⟩
      by_cases known : bytes.take (bytes.idxOf 58) ∈ supported
      · rw [types.sized _ known _ key read, List.length_drop]
        omega
      · obtain ⟨text, rejected⟩ := types.rejects _ (bytes.drop (bytes.idxOf 58 + 1)) known
        rw [rejected] at read
        cases read

/-- A key is loaded from both formats exactly if none of its bytes is a colon. -/
theorem loadsBack_iff_no_colon {supported : List Bytes} (types : KeyTypes library supported)
    {identity : Identity} {key : PrivateKey} (private_ : library.privateKey identity = some key)
    (kind : library.keyType key = secp256k1) (length : (library.raw key).length = 32) :
    LoadsBack library identity key ↔ 58 ∉ library.raw key := by
  have bytes : library.raw key ≠ [] := by
    intro empty
    simp [empty] at length
  constructor
  · intro loads colon
    obtain ⟨other, same, shorter⟩ := load_colon types colon loads.legacy
    rw [private_] at same
    cases same
    exact absurd shorter (Nat.lt_irrefl _)
  · intro plain
    exact
      { saved := fun keyring config entropy _ running =>
          save_succeeds private_ bytes keyring config entropy running
        typed := load_identityBytes private_
        legacy := load_legacy private_ kind plain }

/-! ### A library of secp256k1 keys -/

/-- The order of the group. -/
def secp256k1Order : Nat :=
  0xfffffffffffffffffffffffffffffffebaaedce6af48a03bbfd25e8cd0364141

def scalar (bytes : Bytes) : Nat := bytes.foldl (fun value byte => value * 256 + byte.toNat) 0

def ValidKey (bytes : Bytes) : Prop :=
  bytes.length = 32 ∧ 0 < scalar bytes ∧ scalar bytes < secp256k1Order

instance (bytes : Bytes) : Decidable (ValidKey bytes) := inferInstanceAs (Decidable (_ ∧ _ ∧ _))

theorem colon_not_mem_secp256k1 : 58 ∉ secp256k1 := by decide

def secp256k1Library : IdentityLibrary { bytes // ValidKey bytes } { bytes // ValidKey bytes } where
  privateKeyFromBytes kind bytes :=
    if kind = secp256k1 then
      if valid : ValidKey bytes then .ok ⟨bytes, valid⟩ else .error "invalid private key"
    else .error "unsupported key type"
  fromPrivateKey key := .ok key
  privateKey := some
  keyType _ := secp256k1
  raw key := key.val
  generate entropy :=
    if valid : ValidKey (List.replicate 31 1 ++ [UInt8.ofNat entropy]) then .ok ⟨_, valid⟩
    else .error "no entropy"
  plainType _ := colon_not_mem_secp256k1
  restores identity key equal := by
    cases equal
    exact ⟨by simp [identity.property], rfl⟩

theorem secp256k1Library_types : KeyTypes secp256k1Library [secp256k1] where
  rejects kind bytes unknown :=
    ⟨"unsupported key type", if_neg (by simpa using unknown)⟩
  sized kind known bytes key read := by
    simp only [List.mem_singleton] at known
    simp only [secp256k1Library, if_pos known] at read
    split at read
    · cases read
      rfl
    · cases read
  keeps key identity restored := congrArg some (Except.ok.inj restored).symm

def colonFreeKey : { bytes // ValidKey bytes } := ⟨List.replicate 32 7, by decide +kernel⟩

theorem colonFreeKey_loadsBack : LoadsBack secp256k1Library colonFreeKey colonFreeKey :=
  (loadsBack_iff_no_colon secp256k1Library_types rfl rfl (by decide)).mpr (by decide)

/-- A key with a colon among its bytes. -/
def colonKey : { bytes // ValidKey bytes } :=
  ⟨List.replicate 20 7 ++ 58 :: List.replicate 11 7, by decide +kernel⟩

theorem colonKey_legacy_rejected :
    loadIdentityFromBytes secp256k1Library (identityBytes secp256k1Library colonKey) =
        .ok colonKey ∧
      loadIdentityFromBytes secp256k1Library (secp256k1Library.raw colonKey) =
        .error "failed to reconstruct private key: unsupported key type" ∧
      ¬ LoadsBack secp256k1Library colonKey colonKey := by
  have rejected : loadIdentityFromBytes secp256k1Library (secp256k1Library.raw colonKey) =
      .error "failed to reconstruct private key: unsupported key type" := by decide +kernel
  refine ⟨by decide +kernel, rejected, fun loads => ?_⟩
  have loaded := loads.legacy
  rw [rejected] at loaded
  cases loaded

end ShinzoGenerator.Defradb
