import ShinzoGenerator.Evm.ChainBlocks
import ShinzoGenerator.Indexer.FetchWithRetry

/-! How long a block is waited for. The retry loop goes by the texts of the errors; of all
the ways a fetch of the Ethereum client fails, only a node that does not know the block yet
is waited for without end. -/

set_option autoImplicit false

namespace ShinzoGenerator.Evm

open Errors Indexer TextSearch
open Geth (Keccak)

/-! ### What the texts say -/

theorem notFound_markers : ∀ marker ∈ [errStrNotFound, errStrDoesNotExist],
    Lettered marker ∧ marker ≠ "" ∧ Foreign "/" marker ∧
      ∀ piece ∈ ["failed to get block ", ": ", "failed to fetch block ", " receipts: ", "block "],
        InertBefore piece marker := by
  decide

theorem isErrNotFound_before {piece : String}
    (inert : ∀ marker ∈ [errStrNotFound, errStrDoesNotExist], InertBefore piece marker)
    (text : String) : isErrNotFound (piece ++ text) = isErrNotFound text := by
  unfold isErrNotFound
  rw [contains_before (inert _ (.head _)), contains_before (inert _ (.tail _ (.head _)))]

theorem isErrNotFound_literal {piece : String}
    (listed : piece ∈ ["failed to get block ", ": ", "failed to fetch block ", " receipts: ",
      "block "]) (text : String) : isErrNotFound (piece ++ text) = isErrNotFound text :=
  isErrNotFound_before (fun marker known => (notFound_markers marker known).2.2.2 piece listed) text

theorem isErrNotFound_int (number : Int) (text : String) :
    isErrNotFound (toString number ++ text) = isErrNotFound text := by
  refine isErrNotFound_before (fun marker known => ?_) text
  obtain ⟨lettered, long, _⟩ := notFound_markers marker known
  exact (foreign_intToString lettered number).inertBefore long

theorem isErrNotFound_nat (number : Nat) (text : String) :
    isErrNotFound (toString number ++ text) = isErrNotFound text :=
  isErrNotFound_int number text

theorem isErrNotFound_slash (text : String) : isErrNotFound ("/" ++ text) = isErrNotFound text := by
  refine isErrNotFound_before (fun marker known => ?_) text
  obtain ⟨_, long, foreign, _⟩ := notFound_markers marker known
  exact foreign.inertBefore long

/-- The node says that it does not know the block. -/
def EthereumClient.unknown (client : EthereumClient) (height : Int) : Bool :=
  match client.getPreferredClient with
  | none => false
  | some node =>
      match node.blockByNumber height with
      | .ok _ => false
      | .error reason => isErrNotFound reason

/-- The text of receipts that could not be fetched. -/
theorem isErrNotFound_receipts (height : Int) (failed total : Nat) :
    isErrNotFound ("failed to fetch block " ++ toString height ++ " receipts: " ++
      ("block " ++ toString height ++ ": " ++ toString failed ++ "/" ++ toString total ++
        " transaction receipts could not be fetched")) = false := by
  have ending : isErrNotFound " transaction receipts could not be fetched" = false := by decide
  simp only [String.append_assoc]
  rw [isErrNotFound_literal (by decide), isErrNotFound_int, isErrNotFound_literal (by decide),
    isErrNotFound_literal (by decide), isErrNotFound_int, isErrNotFound_literal (by decide),
    isErrNotFound_nat, isErrNotFound_slash, isErrNotFound_nat, ending]

theorem fetchTransactionsAndReceipts_error {client : RpcClient} {block : Block} {height : Int}
    {text : String} (failed : fetchTransactionsAndReceipts client block height = .error text) :
    ∃ missing total : Nat, text = "block " ++ toString height ++ ": " ++ toString missing ++ "/" ++
      toString total ++ " transaction receipts could not be fetched" := by
  unfold fetchTransactionsAndReceipts at failed
  dsimp only at failed
  split at failed
  · cases failed
  · split at failed
    · cases failed
      exact ⟨_, _, rfl⟩
    · cases failed

theorem fetchBlock_error {client : RpcClient} {height : Int} {text : String}
    (failed : fetchBlock (some client) height = .error text) :
    client.getBlockByNumber height = .error text ∨ isErrNotFound text = false ∧
      ∃ block, client.getBlockByNumber height = .ok block := by
  unfold fetchBlock at failed
  cases answered : client.getBlockByNumber height with
  | error reason =>
      simp only [answered] at failed
      exact .inl (congrArg Except.error (Except.error.inj failed))
  | ok block =>
      simp only [answered] at failed
      cases receipts : fetchTransactionsAndReceipts client block height with
      | ok fetched => simp [receipts] at failed
      | error reason =>
          simp only [receipts, Except.error.injEq] at failed
          obtain ⟨missing, total, rfl⟩ := fetchTransactionsAndReceipts_error receipts
          exact .inr ⟨failed ▸ isErrNotFound_receipts height missing total, block, rfl⟩

theorem isErrNotFound_getBlock {keccak256 : Keccak} {client : EthereumClient} {height : Int}
    {text : String} (failed : (client.rpc keccak256).getBlockByNumber height = .error text) :
    isErrNotFound text = client.unknown height := by
  simp only [EthereumClient.rpc, EthereumClient.getBlockByNumber, EthereumClient.call] at failed
  unfold EthereumClient.unknown
  cases preferred : client.getPreferredClient with
  | none =>
      simp only [preferred, Except.map, Except.error.injEq] at failed
      rw [← failed]
      exact (by decide : isErrNotFound errNoClientAvailable = false)
  | some node =>
      simp only [preferred] at failed ⊢
      cases answered : node.blockByNumber height with
      | ok block => simp [answered, Except.map] at failed
      | error reason =>
          simp only [answered, Except.map, Except.error.injEq] at failed
          rw [← failed, String.append_assoc, String.append_assoc,
            isErrNotFound_literal (by decide), isErrNotFound_int, isErrNotFound_literal (by decide)]

/-- Only the failed call for the block reads as not found; missing receipts do not. -/
theorem isErrNotFound_fetch {keccak256 : Keccak} {client : EthereumClient} {height : Int}
    {text : String} (failed : fetchBlock (some (client.rpc keccak256)) height = .error text) :
    isErrNotFound text = client.unknown height := by
  rcases fetchBlock_error failed with unanswered | ⟨known, block, answered⟩
  · exact isErrNotFound_getBlock unanswered
  · rw [known]
    unfold EthereumClient.unknown
    cases preferred : client.getPreferredClient with
    | none => rfl
    | some node =>
        obtain ⟨gethBlock, called, _⟩ := (rpc_block_ok preferred).mp answered
        simp only [called]

/-! ### The attempts of a fetch -/

/-- An attempt under a live context, with what the node answers in it. -/
def attempt (keccak256 : Keccak) (height : Int) (client : EthereumClient) :
    FetchTurn BlockBundle where
  answer := fetchBlock (some (client.rpc keccak256)) height

/-- The attempt fails although the node does not say that the block is unknown. -/
def LastingFailure (keccak256 : Keccak) (height : Int) (client : EthereumClient) : Bool :=
  !(fetchBlock (some (client.rpc keccak256)) height).isOk && !client.unknown height

theorem attempt_counts (keccak256 : Keccak) (height : Int) (client : EthereumClient) :
    (attempt keccak256 height client).counts = LastingFailure keccak256 height client := by
  unfold FetchTurn.counts LastingFailure attempt
  cases fetched : fetchBlock (some (client.rpc keccak256)) height with
  | ok bundle => rfl
  | error text =>
      simp only [isErrNotFound_fetch fetched]
      rfl

theorem attempt_failed_iff {keccak256 : Keccak} {height : Int} {client : EthereumClient} :
    (attempt keccak256 height client).Failed ↔
      ∃ text, fetchBlock (some (client.rpc keccak256)) height = .error text :=
  ⟨fun failed => failed.failed, fun failed => ⟨⟨rfl, rfl⟩, failed⟩⟩

theorem otherFailures_attempts (keccak256 : Keccak) (height : Int)
    (clients : List EthereumClient) :
    otherFailures (clients.map (attempt keccak256 height)) =
      clients.countP (LastingFailure keccak256 height) := by
  rw [otherFailures, List.countP_map]
  refine List.countP_congr fun client _ => ?_
  rw [Function.comp_apply, attempt_counts]

/-- A turn of the loop ends it with a bundle, or as the failure that is one too many. -/
theorem attempt_ends_iff {keccak256 : Keccak} {height : Int} {client : EthereumClient}
    {context : String} {otherErrors : Nat} {outcome : Except String BlockBundle} :
    Ends context otherErrors (attempt keccak256 height client) outcome ↔
      (∃ bundle, fetchBlock (some (client.rpc keccak256)) height = .ok bundle ∧
          outcome = .ok bundle) ∨
        ∃ reason, fetchBlock (some (client.rpc keccak256)) height = .error reason ∧
          LastingFailure keccak256 height client = true ∧ maxRPCRetries ≤ otherErrors + 1 ∧
          outcome = .error (context ++ reason) := by
  rw [← attempt_counts]
  constructor
  · intro ends
    cases ends with
    | fetched _ answered => exact .inl ⟨_, answered, rfl⟩
    | givesUp _ answered counted last => exact .inr ⟨_, answered, counted, last, rfl⟩
    | cancelled done => cases done
    | cancelledWaiting _ _ _ done => cases done
  · intro ended
    rcases ended with ⟨bundle, answered, rfl⟩ | ⟨reason, answered, counted, last, rfl⟩
    · exact .fetched rfl answered
    · exact .givesUp rfl answered counted last

/-- The attempts before and behind a turn. -/
theorem attempts_split {keccak256 : Keccak} {height : Int} {clients : List EthereumClient}
    {before after : List (FetchTurn BlockBundle)} {turn : FetchTurn BlockBundle} :
    clients.map (attempt keccak256 height) = before ++ turn :: after ↔
      ∃ earlier client later, clients = earlier ++ client :: later ∧
        earlier.map (attempt keccak256 height) = before ∧ attempt keccak256 height client = turn ∧
        later.map (attempt keccak256 height) = after := by
  constructor
  · intro split
    obtain ⟨earlier, rest, rfl, same, tail⟩ := List.map_eq_append_iff.mp split
    obtain ⟨client, later, rfl, head, behind⟩ := List.map_eq_cons_iff.mp tail
    exact ⟨earlier, client, later, rfl, same, head, behind⟩
  · intro ⟨earlier, client, later, listed, same, head, behind⟩
    rw [listed, List.map_append, List.map_cons, same, head, behind]

/-- Attempts that do not find the block never end the loop; otherwise it returns the first
bundle, unless three lasting failures come first. -/
theorem fetchBlockWithRetry_exact (keccak256 : Keccak) (height : Int)
    (clients : List EthereumClient) :
    let fetch := fun client : EthereumClient => fetchBlock (some (client.rpc keccak256)) height
    let failures := fun tried : List EthereumClient =>
      tried.countP (LastingFailure keccak256 height)
    let result := fetchBlockWithRetry height (clients.map (attempt keccak256 height))
    (result = none ↔ (∀ client ∈ clients, ∃ text, fetch client = .error text) ∧
        failures clients < maxRPCRetries) ∧
      ∀ outcome, result = some outcome ↔
        ∃ before client after, clients = before ++ client :: after ∧
          (∀ client ∈ before, ∃ text, fetch client = .error text) ∧
          failures before < maxRPCRetries ∧
          ((∃ bundle, fetch client = .ok bundle ∧ outcome = .ok bundle) ∨
            ∃ reason, fetch client = .error reason ∧
              LastingFailure keccak256 height client = true ∧
              failures before + 1 = maxRPCRetries ∧
              outcome = .error ("failed to fetch block " ++ toString height ++ ": " ++ reason)) := by
  intro fetch failures result
  have all : ∀ tried : List EthereumClient,
      (∀ turn ∈ tried.map (attempt keccak256 height), turn.Failed) ↔
        ∀ client ∈ tried, ∃ text, fetch client = .error text := by
    intro tried
    rw [List.forall_mem_map]
    exact forall₂_congr fun client _ => attempt_failed_iff
  have room : 0 < maxRPCRetries := by decide
  constructor
  · refine (retryFetch_eq_none_iff room).trans ?_
    rw [all, otherFailures_attempts, Nat.zero_add]
  · intro outcome
    refine (retryFetch_eq_some_iff room).trans ?_
    constructor
    · intro ⟨before, turn, after, split, failed, fewer, ends⟩
      obtain ⟨earlier, client, later, listed, rfl, rfl, rfl⟩ := attempts_split.mp split
      rw [otherFailures_attempts, Nat.zero_add] at fewer ends
      refine ⟨earlier, client, later, listed, (all earlier).mp failed, fewer, ?_⟩
      rcases attempt_ends_iff.mp ends with fetched | ⟨reason, answered, lasting, last, same⟩
      · exact .inl fetched
      · exact .inr ⟨reason, answered, lasting, Nat.le_antisymm fewer last, same⟩
    · intro ⟨earlier, client, later, listed, failed, fewer, ended⟩
      refine ⟨_, _, _, attempts_split.mpr ⟨earlier, client, later, listed, rfl, rfl, rfl⟩,
        (all earlier).mpr failed, ?_⟩
      rw [otherFailures_attempts, Nat.zero_add]
      refine ⟨fewer, attempt_ends_iff.mpr ?_⟩
      rcases ended with fetched | ⟨reason, answered, lasting, last, same⟩
      · exact .inl fetched
      · exact .inr ⟨reason, answered, lasting, last.ge, same⟩

end ShinzoGenerator.Evm
