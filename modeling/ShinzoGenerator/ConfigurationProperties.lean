import ShinzoGenerator.Configuration
import ShinzoGenerator.Snapshot.Retained

/-! What holds of every configuration that loads: it loads again as it is, and the
snapshots that it keeps span the blocks that the pruner retains. -/

set_option autoImplicit false

namespace ShinzoGenerator.Configuration

/-! ### Loading again -/

section Reload

variable {α : Type} (read : String → Option α) (env : Env) (name : String)

@[simp] theorem envVar_envVar (old : α) :
    envVar read env name (envVar read env name old) = envVar read env name old := by
  unfold envVar
  split
  · rfl
  · cases read (env name) with
    | none => rfl
    | some value => rfl

@[simp] theorem orDefault_orDefault {unset : α → Bool} {default : α}
    (given : unset default = false) (value : α) :
    orDefault unset default (orDefault unset default value) = orDefault unset default value := by
  cases missing : unset value with
  | true => simp [orDefault, missing, given]
  | false => simp [orDefault, missing]

/-- A default that was filled in stays, whether or not the variable is set. -/
@[simp] theorem orDefault_envVar {unset : α → Bool} {default : α}
    (given : unset default = false) (old : α) :
    orDefault unset default (envVar read env name
        (orDefault unset default (envVar read env name old))) =
      orDefault unset default (envVar read env name old) := by
  unfold envVar
  split
  · exact orDefault_orDefault given old
  · cases read (env name) with
    | none => exact orDefault_orDefault given old
    | some value => rfl

end Reload

@[simp] theorem defraURL_defraURL (env : Env) (old : String) :
    defraURL env (defraURL env old) = defraURL env old := by
  unfold defraURL
  repeat' split
  all_goals rfl

theorem envPositiveInt_again {env : Env} {name : String} {old number : Int}
    (read : envPositiveInt env name old = .ok number) :
    envPositiveInt env name number = .ok number := by
  unfold envPositiveInt at read ⊢
  simp only at read ⊢
  split at read
  · rename_i unset
    rw [if_pos unset]
  · rename_i set
    rw [if_neg set]
    exact read

theorem bind_ok_iff {α β : Type} {first : Except String α} {next : α → Except String β} {result : β} :
    first >>= next = .ok result ↔ ∃ value, first = .ok value ∧ next value = .ok result := by
  cases first with
  | error error => simp [bind, Except.bind]
  | ok value => simp [bind, Except.bind]

theorem applyP2PEnvOverrides_again {env : Env} {old cfg : DefraDBP2PConfig}
    (applied : applyP2PEnvOverrides env old = .ok cfg) : applyP2PEnvOverrides env cfg = .ok cfg := by
  simp only [applyP2PEnvOverrides, bind_ok_iff, pure, Except.pure, Except.ok.injEq] at applied ⊢
  obtain ⟨memory, memoryRead, files, filesRead, streams, streamsRead, rfl⟩ := applied
  refine ⟨_, envPositiveInt_again memoryRead, _, envPositiveInt_again filesRead, _,
    envPositiveInt_again streamsRead, ?_⟩
  simp only [textVar, boolVar, envVar_envVar]

theorem applyDefraEnvOverrides_again {env : Env} {old cfg : DefraDBConfig}
    (applied : applyDefraEnvOverrides env old = .ok cfg) :
    applyDefraEnvOverrides env cfg = .ok cfg := by
  simp only [applyDefraEnvOverrides, bind_ok_iff, pure, Except.pure, Except.ok.injEq] at applied ⊢
  obtain ⟨p2p, overridden, rfl⟩ := applied
  refine ⟨_, applyP2PEnvOverrides_again overridden, ?_⟩
  simp only [defraURL_defraURL, applyStoreEnvOverrides, textVar, intVar, envVar_envVar]

theorem chain_again (env : Env) (cfg : ChainConfig) :
    (applyChainEnvOverrides env (applyChainEnvOverrides env cfg).applyDefaults).applyDefaults =
      (applyChainEnvOverrides env cfg).applyDefaults := by
  simp [applyChainEnvOverrides, ChainConfig.applyDefaults, textVar, orText, defaultChainAdapter]

theorem geth_again (env : Env) (cfg : GethConfig) :
    applyGethEnvOverrides env (applyGethEnvOverrides env cfg) = applyGethEnvOverrides env cfg := by
  simp [applyGethEnvOverrides, textVar, intVar]

/-- The keys come from the environment alone. -/
theorem indexer_again (env : Env) (cfg : IndexerConfig) :
    (applyIndexerEnvOverrides env { (applyIndexerEnvOverrides env
        { cfg with schemaAPIKeys := [] }).applyDefaults with schemaAPIKeys := [] }).applyDefaults =
      (applyIndexerEnvOverrides env { cfg with schemaAPIKeys := [] }).applyDefaults := by
  simp [applyIndexerEnvOverrides, IndexerConfig.applyDefaults, textVar, intVar, orText, orPositive,
    orNonzero, schemaAuthModeToken]

theorem pruner_again (env : Env) (cfg : PrunerConfig) :
    (applyPrunerEnvOverrides env (applyPrunerEnvOverrides env cfg).setDefaults).setDefaults =
      (applyPrunerEnvOverrides env cfg).setDefaults := by
  simp [applyPrunerEnvOverrides, PrunerConfig.setDefaults, boolVar, intVar, orPositive]

theorem snapshot_again (env : Env) (cfg : SnapshotConfig) :
    (applySnapshotEnvOverrides env (applySnapshotEnvOverrides env cfg).setDefaults).setDefaults =
      (applySnapshotEnvOverrides env cfg).setDefaults := by
  simp [applySnapshotEnvOverrides, SnapshotConfig.setDefaults, boolVar, textVar, intVar, orText,
    orPositive, orNonzero, defaultMaxSnapshots]

theorem converter_again (env : Env) (cfg : ConverterConfig) :
    (applyConverterEnvOverrides env (applyConverterEnvOverrides env cfg).setDefaults).setDefaults =
      (applyConverterEnvOverrides env cfg).setDefaults := by
  simp [applyConverterEnvOverrides, ConverterConfig.setDefaults, intVar, orPositive,
    defaultLowestBlockQueryLimit]

/-- What the environment and the defaults make of a configuration, they make of the result
as well. -/
theorem overrides_defaults_again {env : Env} {old overridden : Config}
    (applied : applyEnvOverrides env old.written = .ok overridden) :
    ∃ again, applyEnvOverrides env (applyDefaults overridden).written = .ok again ∧
      applyDefaults again = applyDefaults overridden := by
  simp only [applyEnvOverrides, bind_ok_iff, pure, Except.pure, Except.ok.injEq] at applied ⊢
  obtain ⟨database, overridden, rfl⟩ := applied
  refine ⟨_, ⟨_, applyDefraEnvOverrides_again overridden, rfl⟩, ?_⟩
  simp only [applyDefaults, Config.written, chain_again, geth_again, indexer_again, pruner_again,
    snapshot_again, converter_again, boolVar, envVar_envVar]

/-- A loaded configuration has gone through the environment, the defaults and the checks. -/
theorem loadConfig_ok {env : Env} {file : ConfigFile} {cfg : Config} :
    loadConfig env file = .ok cfg ↔ ∃ old overridden, file = .decoded old ∧
      applyEnvOverrides env old.written = .ok overridden ∧ cfg = applyDefaults overridden ∧
      validateConfig cfg = .ok () := by
  constructor
  · intro loaded
    cases file with
    | unreadable error => cases loaded
    | malformed error => cases loaded
    | decoded old =>
        simp only [loadConfig] at loaded
        cases applied : applyEnvOverrides env old.written with
        | error error => simp [applied] at loaded
        | ok overridden =>
            simp only [applied] at loaded
            cases valid : validateConfig (applyDefaults overridden) with
            | error error => simp [valid] at loaded
            | ok done =>
                simp only [valid, Except.ok.injEq] at loaded
                exact ⟨old, overridden, rfl, applied, loaded.symm, loaded ▸ valid⟩
  · intro loads
    obtain ⟨old, overridden, written, applied, rfl, valid⟩ := loads
    simp only [loadConfig, written, applied, valid]

/-- A configuration that was loaded loads as it is, in the same environment. -/
theorem loaded_config_reloads {env : Env} {file : ConfigFile} {cfg : Config}
    (loaded : loadConfig env file = .ok cfg) : loadConfig env (.decoded cfg) = .ok cfg := by
  obtain ⟨old, overridden, _, applied, rfl, valid⟩ := loadConfig_ok.mp loaded
  obtain ⟨again, reapplied, same⟩ := overrides_defaults_again applied
  exact loadConfig_ok.mpr ⟨_, again, rfl, reapplied, same.symm, valid⟩

/-! Files of two blocks, of which two are kept, and a pruner that retains four blocks. -/

def smallFile : ConfigFile := .decoded {
  defraDB := { embedded := true }
  pruner := { enabled := true, maxBlocks := 4 }
  snapshot := { enabled := true, blocksPerFile := 2, maxSnapshots := 2 } }

def smallConfig : Config := applyDefaults {
  defraDB := { embedded := true }
  pruner := { enabled := true, maxBlocks := 4 }
  snapshot := { enabled := true, blocksPerFile := 2, maxSnapshots := 2 } }

theorem smallFile_loads : loadConfig (fun _ => "") smallFile = .ok smallConfig := by rfl

theorem small_config_reloads : loadConfig (fun _ => "") (.decoded smallConfig) = .ok smallConfig :=
  loaded_config_reloads smallFile_loads

/-! ### What the components rely on -/

theorem orPositive_pos {default : Int} (positive : 0 < default) (number : Int) :
    0 < orPositive default number := by
  unfold orPositive orDefault
  split
  · exact positive
  · rename_i given
    exact not_le.mp (of_decide_eq_false (Bool.not_eq_true _ ▸ given))

theorem blocksPerFile_pos {env : Env} {file : ConfigFile} {cfg : Config}
    (loaded : loadConfig env file = .ok cfg) : 0 < cfg.snapshot.blocksPerFile := by
  obtain ⟨_, given, _, _, rfl, _⟩ := loadConfig_ok.mp loaded
  exact orPositive_pos (by decide) _

/-- The settings of the snapshotter that a loaded configuration stands for. -/
def snapshotterOf {env : Env} {file : ConfigFile} {cfg : Config}
    (loaded : loadConfig env file = .ok cfg) : Snapshot.SnapshotConfig where
  blocksPerFile := cfg.snapshot.blocksPerFile
  maxSnapshots := cfg.snapshot.maxSnapshots
  positive := blocksPerFile_pos loaded

/-- A product that wraps is not larger than the product itself. -/
theorem mulInt64_le {first second : Int} (nonneg : 0 ≤ first * second) :
    mulInt64 first second ≤ first * second := by
  unfold mulInt64
  generalize first * second = product at nonneg ⊢
  rw [Int.bmod_def]
  have split := Int.mul_ediv_add_emod product 18446744073709551616
  split
  · omega
  · omega

theorem limit_of_nonzero {cfg : Snapshot.SnapshotConfig} (nonzero : cfg.maxSnapshots ≠ 0)
    {limit : Nat} (limited : cfg.limit? = some limit) : 0 < cfg.maxSnapshots ∧
      (limit : Int) = cfg.maxSnapshots := by
  rw [Snapshot.SnapshotConfig.limit?, if_neg nonzero] at limited
  split at limited
  · cases limited
  · cases limited
    omega

theorem maxSnapshots_nonzero {env : Env} {file : ConfigFile} {cfg : Config}
    (loaded : loadConfig env file = .ok cfg) : cfg.snapshot.maxSnapshots ≠ 0 := by
  obtain ⟨_, given, _, _, rfl, _⟩ := loadConfig_ok.mp loaded
  simp only [applyDefaults, SnapshotConfig.setDefaults, orNonzero, orDefault]
  split
  · decide
  · rename_i nonzero
    simpa using nonzero

/-- The check of the coverage is sound, even where its product wraps. -/
theorem coverage_spans {env : Env} {file : ConfigFile} {cfg : Config}
    (loaded : loadConfig env file = .ok cfg) (snapshots : cfg.snapshot.enabled = true)
    (prunes : cfg.pruner.enabled = true) :
    ∀ limit, (snapshotterOf loaded).limit? = some limit →
      cfg.pruner.maxBlocks ≤ limit * (snapshotterOf loaded).blocksPerFile := by
  intro limit limited
  have size := blocksPerFile_pos loaded
  have nonzero : (snapshotterOf loaded).maxSnapshots ≠ 0 := maxSnapshots_nonzero loaded
  obtain ⟨positive, count⟩ := limit_of_nonzero nonzero limited
  have some : 0 < cfg.snapshot.maxSnapshots := positive
  obtain ⟨_, _, _, _, _, valid⟩ := loadConfig_ok.mp loaded
  have covered : validateCoverage cfg = .ok () := by
    unfold validateConfig at valid
    repeat' split at valid
    all_goals first | cases valid | exact valid
  rw [validateCoverage, if_pos ⟨snapshots, prunes, some⟩] at covered
  simp only at covered
  split at covered
  · cases covered
  · rename_i enough
    have wraps := mulInt64_le (Int.mul_nonneg some.le size.le)
    rw [count]
    exact (not_lt.mp enough).trans wraps

/-- With a configuration that loads and lets both components run, every height that was
snapshotted and lies less than the pruner's retention below the newest snapshotted one is
in a file on disk, whenever the process ends and starts again. -/
theorem retention_window_snapshotted {env : Env} {file : ConfigFile} {cfg : Config}
    (loaded : loadConfig env file = .ok cfg) (snapshots : cfg.snapshot.enabled = true)
    (prunes : cfg.pruner.enabled = true) {life : Snapshot.Lifetime}
    (reached : ((Snapshot.snapshotter (snapshotterOf loaded)).restrict
      Snapshot.Undisturbed).Path {} life)
    {done : Snapshot.Completion} (member : done ∈ life.completed) {height : Int}
    (inside : done.startBlock ≤ height ∧ height ≤ done.endBlock)
    (near : Snapshot.newestEnd life.completed - height < cfg.pruner.maxBlocks) :
    done.fileName ∈ life.dir :=
  Snapshot.window_on_disk reached (coverage_spans loaded snapshots prunes) member inside.2 near

/-! The oldest of three files is removed once the third one is there. -/

def smallMoves : List Snapshot.SnapshotMove :=
  [.start fun _ => false, .purged, .cycle 1 9, .rename, .advance fun _ => false, .purged,
    .cycle 1 9, .rename, .crash, .start fun _ => false, .purged, .cycle 1 9, .rename,
    .advance fun _ => false, .remove false, .purged]

def smallLife : Snapshot.Lifetime where
  dir := [Snapshot.snapshotFileName 4 5, Snapshot.snapshotFileName 6 7]
  lastSnapshotBlock := 7
  phase := .idle
  completed :=
    [{ startBlock := 2, endBlock := 3, lowest := 1, highest := 9 },
      { startBlock := 4, endBlock := 5, lowest := 1, highest := 9 },
      { startBlock := 6, endBlock := 7, lowest := 1, highest := 9 }]

theorem oldest_retained_height_on_disk :
    (Snapshot.snapshotter (snapshotterOf smallFile_loads)).run? smallMoves {} = some smallLife ∧
      Snapshot.snapshotFileName 4 5 ∈ smallLife.dir := by
  have executed : (Snapshot.snapshotter (snapshotterOf smallFile_loads)).run? smallMoves {} =
      some smallLife := by decide +kernel
  have undisturbed : ∀ move ∈ smallMoves, ∀ life, Snapshot.Undisturbed life move := by
    simp [smallMoves, Snapshot.Undisturbed]
  have reached := GuardedSystem.path_of_run?_restrict undisturbed executed
  have listed : (⟨4, 5, 1, 9⟩ : Snapshot.Completion) ∈ smallLife.completed := by decide
  have onDisk := retention_window_snapshotted smallFile_loads rfl rfl reached listed
    (⟨le_refl 4, by decide⟩ : (4 : Int) ≤ 4 ∧ (4 : Int) ≤ 5) (by decide)
  exact ⟨executed, onDisk⟩

end ShinzoGenerator.Configuration
