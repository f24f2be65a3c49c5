import ShinzoGenerator.Indexer.RunInvariants

/-! Runs that can be executed: the guards are decidable, and a list of moves
that goes through is a run. -/

set_option autoImplicit false

namespace ShinzoGenerator.Indexer

open Chains Defra

instance (workers : Nat) (nextToCommit : Int) (ctxDone : Bool) (d : Dispatcher)
    (move : DispatchMove) : Decidable (dispatchEnabled workers nextToCommit ctxDone d move) :=
  match move with
  | .send | .dropped _ | .shutdown | .closeResults => inferInstanceAs (Decidable (_ ∧ _))
  | .fetched _ _ => inferInstanceAs (Decidable (_ ∧ _ ∧ _))

instance (workers : Nat) (ctxDone : Bool) (pool : Pool) (db : DB) (move : PoolMove) :
    Decidable (poolEnabled workers ctxDone pool db move) :=
  match move with
  | .take _ | .report _ => inferInstanceAs (Decidable (_ ∧ _))
  | .commitBlock _ _ | .finishStore _ _ _ => inferInstanceAs (Decidable (_ ∧ _ ∧ _))
  | .commitOthers _ docs =>
      inferInstanceAs (Decidable (_ ∧ (∀ doc ∈ docs, doc.collection ≠ .block) ∧ _))
  | .release => inferInstanceAs (Decidable (0 < pool.unreleased))

instance (run : Run) (move : CollectMove) : Decidable (collectEnabled run move) :=
  match move with
  | .pop | .check _ _ | .resolve _ | .refetched _ _ | .hold =>
      inferInstanceAs (Decidable (run.pc = _))
  | .recvResult _ | .recvCompletion _ | .drainSettled _ | .drained _ | .walk _ _ _ =>
      inferInstanceAs (Decidable (_ ∧ _))
  | .recvResultsClosed | .recvCompletionsClosed | .send _ | .done =>
      inferInstanceAs (Decidable (_ ∧ _ ∧ _))
  | .drainRecv _ _ => inferInstanceAs (Decidable ((_ ∨ _) ∧ _))

instance (run : Run) (move : Move) : Decidable (processBlocksOnce.enabled run move) :=
  match move with
  | .cancel => inferInstanceAs (Decidable True)
  | .dispatch _ => inferInstanceAs (Decidable (dispatchEnabled _ _ _ _ _))
  | .pool _ => inferInstanceAs (Decidable (poolEnabled _ _ _ _ _))
  | .collect _ => inferInstanceAs (Decidable (collectEnabled _ _))
  | .closeCompletions => inferInstanceAs (Decidable (_ ∧ _ ∧ _ ∧ _))
  | .finish => inferInstanceAs (Decidable (_ ∧ _))

/-- A state that an executed list of moves leads to, with what a test says about it. -/
theorem runUnder_of_execution (allowed : Run → Move → Prop) (setup : Setup) (db : DB)
    (moves : List Move) (test : Run → Bool)
    (admitted : ∀ move ∈ moves, ∀ run, allowed run move)
    (executed : (processBlocksOnce.run? moves (Run.start setup 0 ∅ db)).any test = true) :
    ∃ run, RunUnder allowed setup db run ∧ test run = true := by
  cases found : processBlocksOnce.run? moves (Run.start setup 0 ∅ db) with
  | none => simp [found] at executed
  | some run =>
      refine ⟨run, ⟨_, _, GuardedSystem.path_of_run?_restrict admitted found⟩, ?_⟩
      simpa [found] using executed

instance (allowed : Run → Move → Prop) [∀ run move, Decidable (allowed run move)] (run : Run)
    (move : Move) : Decidable ((restricted allowed).enabled run move) :=
  inferInstanceAs (Decidable (_ ∧ _))

/-- The same for a restriction that is tested at every move. -/
theorem runUnder_of_tested_execution (allowed : Run → Move → Prop)
    [∀ run move, Decidable (allowed run move)] (setup : Setup) (db : DB) (moves : List Move)
    (test : Run → Bool)
    (executed : ((restricted allowed).run? moves (Run.start setup 0 ∅ db)).any test = true) :
    ∃ run, RunUnder allowed setup db run ∧ test run = true := by
  cases found : (restricted allowed).run? moves (Run.start setup 0 ∅ db) with
  | none => simp [found] at executed
  | some run =>
      refine ⟨run, ⟨_, _, GuardedSystem.path_of_run? found⟩, ?_⟩
      simpa [found] using executed

theorem runOf_of_execution (setup : Setup) (db : DB) (moves : List Move) (test : Run → Bool)
    (executed : (processBlocksOnce.run? moves (Run.start setup 0 ∅ db)).any test = true) :
    ∃ run, RunOf setup db run ∧ test run = true :=
  runUnder_of_execution _ setup db moves test (fun _ _ _ => trivial) executed

def blockFields (number : Int) (hash parentHash : String) : Fields :=
  [(numberFieldName, .int64 number), (hashFieldName, .string hash),
    (parentHashFieldName, .string parentHash)]

/-- A conversion with a block document only. -/
def bareBlock (number : Int) (hash parentHash : String) : ConversionResult :=
  { groups :=
      [{ collection := .block
         docs := [blockFields number hash parentHash]
         blockNumField := numberFieldName
         blockHashField := hashFieldName
         parentHashField := parentHashFieldName }] }

/-- The item a fetch worker makes of a served conversion. -/
def served (number : Int) (converted : ConversionResult) : BlockResult :=
  fetchAndConvertBlock number (.ok converted)

/-- The completion of a store that went through. -/
def stored (item : BlockResult) : StoreCompletion := { item, computed := .ok "" }

/-- The next height is dispatched, fetched, and received by the collector. -/
def fetchMoves (number : Int) (reply : Except String ConversionResult) : List Move :=
  [.dispatch .send, .dispatch (.fetched number reply), .collect .pop, .collect .hold,
    .collect (.recvResult (fetchAndConvertBlock number reply))]

/-- A received item is popped, checked, held and handed over. -/
def handMoves (item : BlockResult) : List Move :=
  [.collect .pop, .collect (.check item false), .collect .hold, .collect (.send item)]

/-- A worker stores a queued item and reports, and the collector applies the completion. -/
def storeMoves (item : BlockResult) (doc : Doc) : List Move :=
  [.pool (.take item), .pool (.commitBlock item doc), .pool (.finishStore item (.ok "") false),
    .pool (.report (stored item)), .pool .release, .collect .pop, .collect .hold,
    .collect (.recvCompletion (stored item))]

/-- One bare block from its dispatch to its callback. -/
def indexMoves (number : Int) (hash parentHash : String) : List Move :=
  fetchMoves number (.ok (bareBlock number hash parentHash)) ++
    handMoves (served number (bareBlock number hash parentHash)) ++
    storeMoves (served number (bareBlock number hash parentHash))
      ⟨.block, blockFields number hash parentHash⟩

/-- A parked item is popped and resolved, and the drain of an idle pool ends at once. -/
def confirmMoves (item : BlockResult) : List Move :=
  [.collect .pop, .collect (.resolve item),
    .collect (.drainSettled { confirmed := some item }),
    .collect (.drained { confirmed := some item })]

/-- The shutdown of a cancelled run with an idle pool, from the hold position on. -/
def shutdownMoves : List Move :=
  [.collect .hold, .collect .done, .dispatch .shutdown, .dispatch .closeResults,
    .closeCompletions, .collect .pop, .collect .hold, .collect .recvResultsClosed,
    .collect .pop, .collect .hold, .collect .recvCompletionsClosed, .finish]

end ShinzoGenerator.Indexer
