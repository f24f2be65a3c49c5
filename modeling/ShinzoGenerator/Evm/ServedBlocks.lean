import ShinzoGenerator.Evm.FetchRetries
import ShinzoGenerator.Indexer.Provenance

/-! From the Ethereum nodes to the store. A call of the indexer that fetches from any nodes,
which answer, fail and change their branch as they like, keeps one visible block a height,
and every block document it adds is that of a block the nodes served at its height. -/

set_option autoImplicit false

namespace ShinzoGenerator.Evm

open Chains Defra Indexer
open Geth (Keccak)

/-! ### One fetch -/

/-- What `fetchAndConvertBlock` makes of the fetched bundle. -/
def convertFetched (converter : Converter) :
    Except String BlockBundle → Except String ConversionResult
  | .error text => .error text
  | .ok bundle =>
      match converter.convert bundle with
      | .error text => .error ("convert block: " ++ text)
      | .ok converted => .ok converted.result

/-- If the node answers the call for the block, then with one of that height. -/
def AnswersWith (served : Geth.Block → Prop) (height : Int) (client : EthereumClient) : Prop :=
  ∀ node, client.getPreferredClient = some node → ∀ block, node.blockByNumber height = .ok block →
    served block ∧ (block.number : Int) = height

/-- A reply of the retry loop over the client, whose nodes may change between the turns. -/
def Replies (keccak256 : Keccak) (converter : Converter) (served : Geth.Block → Prop)
    (height : Int) (reply : Except String ConversionResult) : Prop :=
  height < int64Heights ∧ ∃ turns outcome,
    (∀ turn ∈ turns, ∃ client, AnswersWith served height client ∧
      turn.answer = fetchBlock (some (client.rpc keccak256)) height) ∧
    fetchBlockWithRetry height turns = some outcome ∧ reply = convertFetched converter outcome

/-- The document of a served block. -/
def ServedDoc (keccak256 : Keccak) (served : Geth.Block → Prop) (doc : Doc) : Prop :=
  ∃ block, served block ∧
    doc = ⟨.block, buildBlockData (convertGethBlock keccak256 block) block.number⟩

section Fetch

variable {keccak256 : Keccak} {converter : Converter} {served : Geth.Block → Prop} {height : Int}

/-- Behind a bundle of the retry loop is one attempt. -/
theorem fetchBlockWithRetry_ok {turns : List (FetchTurn BlockBundle)} {bundle : BlockBundle}
    (ended : fetchBlockWithRetry height turns = some (.ok bundle)) :
    ∃ turn ∈ turns, turn.answer = .ok bundle := by
  obtain ⟨before, turn, after, rfl, _, _, ends⟩ :=
    (retryFetch_eq_some_iff (by decide : 0 < maxRPCRetries)).mp ended
  cases ends with
  | fetched _ answered => exact ⟨turn, by simp, answered⟩

theorem fetchBlock_served {client : EthereumClient} (serves : AnswersWith served height client)
    {bundle : BlockBundle} (fetched : fetchBlock (some (client.rpc keccak256)) height = .ok bundle) :
    ∃ block receipts, served block ∧ (block.number : Int) = height ∧
      bundle = fetchedBundle (convertGethBlock keccak256 block) receipts := by
  obtain ⟨block, receipts, answered, _, rfl⟩ := fetchBlock_ok.mp fetched
  cases preferred : client.getPreferredClient with
  | none =>
      simp [EthereumClient.rpc, EthereumClient.getBlockByNumber, EthereumClient.call, preferred,
        Except.map] at answered
  | some node =>
      obtain ⟨gethBlock, answer, rfl⟩ := (rpc_block_ok preferred).mp answered
      obtain ⟨known, numbered⟩ := serves node preferred gethBlock answer
      exact ⟨gethBlock, receipts, known, numbered, rfl⟩

/-- A printed hash is never the empty text. -/
theorem hex_ne_empty (hash : Geth.Hash) : hash.hex ≠ "" := by
  intro empty
  have digits := congrArg String.toList empty
  rw [Geth.toList_hex] at digits
  cases digits

/-- What the collector sees of a reply that brings a block. -/
theorem replied_block (reply : Except String ConversionResult)
    (replies : Replies keccak256 converter served height reply)
    (success : (fetchAndConvertBlock height reply).success = true) :
    ∃ block, served block ∧ (block.number : Int) = height ∧
      (fetchAndConvertBlock height reply).converted.blockDoc? =
        some ⟨.block, buildBlockData (convertGethBlock keccak256 block) block.number⟩ ∧
      (fetchAndConvertBlock height reply).hash = block.hash.hex := by
  obtain ⟨small, turns, outcome, attempts, ended, rfl⟩ := replies
  cases outcome with
  | error text => cases success
  | ok bundle =>
      obtain ⟨turn, listed, answered⟩ := fetchBlockWithRetry_ok ended
      obtain ⟨client, serves, attempted⟩ := attempts turn listed
      obtain ⟨block, receipts, known, numbered, rfl⟩ :=
        fetchBlock_served serves (attempted.symm.trans answered)
      cases converts : converter.convert
          (fetchedBundle (convertGethBlock keccak256 block) receipts) with
      | error text =>
          simp only [convertFetched, converts] at success
          cases success
      | ok converted =>
          obtain ⟨merged, blockInt, given, parsed, grouped, _⟩ := convert_ok converts
          cases given
          have whole : block.numberU64 = block.number := by
            refine Nat.mod_eq_of_lt ?_
            unfold int64Heights at small
            omega
          obtain ⟨_, rfl⟩ := (hexToInt_toString (numberU64_fits block)).mp parsed
          rw [whole] at grouped
          refine ⟨block, known, numbered, ?_, ?_⟩
          · simp only [convertFetched, converts, fetchAndConvertBlock, ConversionResult.blockDoc?,
              grouped]
            rfl
          · simp only [convertFetched, converts, fetchAndConvertBlock, grouped]
            rfl

theorem replied_numbered {reply : Except String ConversionResult}
    (replies : Replies keccak256 converter served height reply) :
    Numbered (fetchAndConvertBlock height reply) := by
  intro success
  obtain ⟨block, _, numbered, stores, hashed⟩ := replied_block reply replies success
  have named : (fetchAndConvertBlock height reply).blockNum = height := by
    cases reply <;> rfl
  refine ⟨_, stores, rfl, ?_, ?_, ?_⟩
  · rw [named, ← numbered]
    rfl
  · rw [hashed]
    rfl
  · rw [hashed]
    exact hex_ne_empty block.hash

theorem replied_served {reply : Except String ConversionResult}
    (replies : Replies keccak256 converter served height reply) :
    FetchedFrom (ServedDoc keccak256 served) (fetchAndConvertBlock height reply) := by
  intro success doc stores
  obtain ⟨block, known, _, own, _⟩ := replied_block reply replies success
  rw [own, Option.some.injEq] at stores
  exact ⟨block, known, stores.symm⟩

end Fetch

/-! ### The call -/

/-- Every reply to the workers and to the collector comes from the client. -/
def EvmNode (keccak256 : Keccak) (converter : Converter) (served : Geth.Block → Prop) (_ : Run) :
    Move → Prop
  | .dispatch (.fetched height reply) => Replies keccak256 converter served height reply
  | .collect (.refetched item reply) => Replies keccak256 converter served item.blockNum reply
  | _ => True

theorem evmNode_answers (keccak256 : Keccak) (converter : Converter) (served : Geth.Block → Prop) :
    Answers (FetchedFrom (ServedDoc keccak256 served)) (EvmNode keccak256 converter served) :=
  ⟨fun _ _ _ replies => replied_served replies, fun _ _ _ replies => replied_served replies⟩

theorem evmNode_numbered {keccak256 : Keccak} {converter : Converter}
    {served : Geth.Block → Prop} (run : Run) (move : Move)
    (permitted : EvmNode keccak256 converter served run move) : NumberedNode run move := by
  cases move with
  | dispatch move =>
      cases move with
      | fetched => exact replied_numbered permitted
      | send | dropped | shutdown | closeResults => trivial
  | collect move =>
      cases move with
      | refetched => exact replied_numbered permitted
      | _ => trivial
  | cancel | pool | closeCompletions | finish => trivial

/-- From a store that is clear from the start height on there is, through reorganisations,
rollbacks and restarts, at most one visible block a height; and every block document was
there before the call or is that of a served block. -/
theorem visible_blocks_served {keccak256 : Keccak} {converter : Converter}
    {served : Geth.Block → Prop} {workers : Nat} {startBlock : Int} {known : Option Int}
    {committedHashes : HeightMap String} {db : DB} {processor : Processor}
    (clear : ClearFrom startBlock db)
    (reached : CallUnder (fun _ => EvmNode keccak256 converter served)
      (Processor.call workers startBlock known committedHashes db) processor) :
    SingleBlocks processor.stage.db ∧
      ∀ doc, processor.stage.db.Holds doc → doc.collection = .block →
        db.Holds doc ∨ ServedDoc keccak256 served doc := by
  have numbered : CallUnder (fun _ => NumberedNode)
      (Processor.call workers startBlock known committedHashes db) processor :=
    reached.restrict_mono (during_mono fun _ => evmNode_numbered)
  exact ⟨(numbered.stageClear clear).single, reached.blocksFrom (evmNode_answers keccak256 converter served)⟩

/-! ### A reorganisation -/

/-- A chain of empty blocks. -/
def chainBlock (number : Nat) : Geth.Block :=
  { plainBlock number [] with
    hash := repeatedHash (.ofNat number)
    parentHash := repeatedHash (.ofNat (number - 1)) }

def emptyBlocks : EthereumClient where
  httpClient := some
    { blockByNumber := fun height => .ok (chainBlock height.toNat)
      blockReceipts := fun _ => .ok []
      transactionReceipt := fun _ _ => .error "not found" }

def emptyReply (height : Int) : Except String ConversionResult :=
  convertFetched unconfigured (fetchBlock (some (emptyBlocks.rpc fun _ => [])) height)

def emptyBlockDoc (number : Nat) : Doc :=
  ⟨.block, buildBlockData (convertGethBlock (fun _ => []) (chainBlock number)) number⟩

def orphanDoc : Doc := ⟨.block, blockFields 4 (repeatedHash 9).hex (repeatedHash 3).hex⟩

/-- Block 3 is on the chain, and the stored block 4 is not. -/
def orphanStore : DB where
  visible := [emptyBlockDoc 3, orphanDoc]
  deleted := []
  nodup := by decide +kernel
  separate := by simp

/-- Blocks 5 and 6 uncover the orphan, a rollback takes it away, and a second run stores the
block 4 of the chain. -/
def reorgCall : List ProcessMove :=
  let item := fetchAndConvertBlock 4 (emptyReply 4)
  let headers hash :=
    if hash = (repeatedHash 5).hex then (repeatedHash 4).hex else (repeatedHash 3).hex
  .seed false :: (reorgMoves (emptyReply 5) (emptyReply 6) headers).map .step ++
    [.returned, .rollback 1 false, .seed false] ++
    (fetchMoves 4 (emptyReply 4) ++ handMoves item ++ storeMoves item (emptyBlockDoc 4)).map .step

theorem emptyReply_replies {height : Int} (bounds : 0 ≤ height ∧ height < int64Heights) :
    Replies (fun _ => []) unconfigured (fun block => block.transactions = []) height
      (emptyReply height) := by
  refine ⟨bounds.2, [attempt (fun _ => []) height emptyBlocks], _, ?_, rfl, rfl⟩
  intro turn listed
  cases List.mem_singleton.mp listed
  refine ⟨emptyBlocks, ?_, rfl⟩
  intro node preferred block answered
  cases preferred
  cases answered
  exact ⟨rfl, Int.toNat_of_nonneg bounds.1⟩

theorem reorgCall_allowed : ∀ move ∈ reorgCall, ∀ processor,
    During (fun _ => EvmNode (fun _ => []) unconfigured fun block => block.transactions = [])
      processor move := by
  intro move listed processor
  unfold During
  split
  · rename_i run inner
    simp only [reorgCall, reorgMoves, fetchMoves, handMoves, storeMoves, confirmMoves,
      shutdownMoves, List.map_append, List.map_cons, List.map_nil, List.mem_append, List.mem_cons,
      List.not_mem_nil, or_false, reduceCtorEq, false_or, ProcessMove.step.injEq] at listed
    unfold EvmNode
    split
    · rename_i height reply
      have own : (height = 5 ∨ height = 6 ∨ height = 4) ∧ reply = emptyReply height := by
        simp only [reduceCtorEq, Move.dispatch.injEq, DispatchMove.fetched.injEq, false_or,
          or_false] at listed
        rcases listed with (⟨rfl, rfl⟩ | ⟨rfl, rfl⟩) | ⟨rfl, rfl⟩ <;> simp
      rw [own.2]
      refine emptyReply_replies ?_
      unfold int64Heights
      omega
    · simp at listed
    · trivial
  · trivial

theorem served_after_reorg :
    ∃ processor, CallUnder
        (fun _ => EvmNode (fun _ => []) unconfigured fun block => block.transactions = [])
        (Processor.call 2 5 none ∅ orphanStore) processor ∧
      processor.stage.db.visible = [emptyBlockDoc 3, emptyBlockDoc 4] ∧
      processor.stage.db.deleted = [orphanDoc] ∧ SingleBlocks processor.stage.db ∧
      ServedDoc (fun _ => []) (fun block => block.transactions = []) (emptyBlockDoc 4) := by
  have executed : (processBlocks.run? reorgCall (Processor.call 2 5 none ∅ orphanStore)).any
      (fun processor => processor.stage.db.visible = [emptyBlockDoc 3, emptyBlockDoc 4] ∧
        processor.stage.db.deleted = [orphanDoc]) = true := by
    decide +kernel
  obtain ⟨processor, found, stored⟩ := (Option.any_eq_true _ _).mp executed
  have reached := GuardedSystem.path_of_run?_restrict reorgCall_allowed found
  obtain ⟨visible, deleted⟩ := of_decide_eq_true stored
  have clear : ClearFrom 5 orphanStore :=
    clearFrom_of_listed (by decide +kernel : BlocksListed orphanStore [3, 4]) (by decide)
      (by decide +kernel) (by decide +kernel)
  obtain ⟨single, accounted⟩ := visible_blocks_served clear reached
  refine ⟨processor, reached, visible, deleted, single, ?_⟩
  refine (accounted (emptyBlockDoc 4) (.inl (by simp [visible])) rfl).resolve_left ?_
  unfold SoftStore.Holds
  decide +kernel

end ShinzoGenerator.Evm
