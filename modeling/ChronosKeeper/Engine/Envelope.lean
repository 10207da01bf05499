import ChronosKeeper.Engine.NodeSafety
import ChronosKeeper.Foundations.Fields

/-!
# What an envelope says

The envelope of a submission is a text of fields with colons between them. `Envelope` has the
fields and `Envelope.read` reads them, from the end. Reading and writing are inverse to each other
where the task, the keeper and the signature have no colon in them (`Envelope.read_eq_some_iff`);
the address of the contract may have any.

So the network can tell from an envelope which task is executed and in which role, and that the
signature is one of this message (`submissions_read_back`).
-/

set_option autoImplicit false

namespace ChronosKeeper.Engine

open ChronosKeeper.Foundations

structure Envelope where
  contract : String
  task : String
  keeper : String
  role : ExecutionRole
  signature : String
  deriving DecidableEq

/-- The string has no colon in it. -/
def Plain (s : String) : Prop := ':' ∉ s.toList

instance (s : String) : Decidable (Plain s) := inferInstanceAs (Decidable (¬ _))

/-- The role with this name. -/
def ExecutionRole.ofDebug (s : String) : Option ExecutionRole :=
  [ExecutionRole.designated, .secondary, .postGrace].find? fun role => role.debug = s

theorem ExecutionRole.ofDebug_eq_some_iff {s : String} {role : ExecutionRole} :
    ExecutionRole.ofDebug s = some role ↔ s = role.debug := by
  constructor
  · intro h
    have hname := List.find?_some h
    exact (of_decide_eq_true hname).symm
  · rintro rfl
    cases role <;> rfl

theorem ExecutionRole.plain_debug (role : ExecutionRole) : Plain role.debug := by
  cases role <;> decide

namespace Envelope

/-- The text that is signed. -/
def message (e : Envelope) : String :=
  "execute_drip_split:contract=" ++ e.contract ++ ":task=" ++ e.task ++ ":keeper=" ++ e.keeper ++
    ":role=" ++ e.role.debug

def text (e : Envelope) : String :=
  "SIGNED:contract=" ++ e.contract ++ ":task=" ++ e.task ++ ":keeper=" ++ e.keeper ++ ":role=" ++
    e.role.debug ++ ":sig=" ++ e.signature

/-- Reads the fields, the last one first. -/
def read (s : String) : Option Envelope := do
  let (rest, signature) ← takeField ':' "sig=".toList s.toList
  let (rest, debug) ← takeField ':' "role=".toList rest
  let role ← ExecutionRole.ofDebug (String.ofList debug)
  let (rest, keeper) ← takeField ':' "keeper=".toList rest
  let (rest, task) ← takeField ':' "task=".toList rest
  let contract ← stripKey "SIGNED:contract=".toList rest
  return {
    contract := String.ofList contract
    task := String.ofList task
    keeper := String.ofList keeper
    role := role
    signature := String.ofList signature }

/-- The fields after the contract have no colon in them. -/
structure Readable (e : Envelope) : Prop where
  task : Plain e.task
  keeper : Plain e.keeper
  signature : Plain e.signature

theorem toList_text (e : Envelope) : e.text.toList =
    (((("SIGNED:contract=".toList ++ e.contract.toList) ++ ':' :: ("task=".toList ++ e.task.toList))
      ++ ':' :: ("keeper=".toList ++ e.keeper.toList)) ++ ':' :: ("role=".toList ++
        e.role.debug.toList)) ++ ':' :: ("sig=".toList ++ e.signature.toList) := by
  unfold text
  simp

/-- What is read is what was written. -/
theorem read_eq_some_iff {s : String} {e : Envelope} :
    read s = some e ↔ s = e.text ∧ e.Readable := by
  have hsig : ':' ∉ "sig=".toList := by decide
  have hrole : ':' ∉ "role=".toList := by decide
  have hkeeper : ':' ∉ "keeper=".toList := by decide
  have htask : ':' ∉ "task=".toList := by decide
  simp only [read, Option.bind_eq_bind, Option.pure_def, Option.bind_eq_some_iff, Prod.exists,
    Option.some.injEq, takeField_eq_some_iff hsig, takeField_eq_some_iff hrole,
    takeField_eq_some_iff hkeeper, takeField_eq_some_iff htask, stripKey_eq_some_iff,
    ExecutionRole.ofDebug_eq_some_iff]
  constructor
  · rintro ⟨_, signature, ⟨hs, hsignature⟩, _, debug, ⟨rfl, -⟩, role, hdebug, _, keeper,
      ⟨rfl, hkeeper⟩, _, task, ⟨rfl, htask⟩, contract, rfl, rfl⟩
    have hrole : role.debug.toList = debug := by rw [← hdebug, String.toList_ofList]
    refine ⟨String.toList_inj.1 ?_, ?_⟩
    · rw [toList_text, hs]
      simp only [hrole, String.toList_ofList]
    · constructor
      · rwa [Plain, String.toList_ofList]
      · rwa [Plain, String.toList_ofList]
      · rwa [Plain, String.toList_ofList]
  · rintro ⟨rfl, h⟩
    refine ⟨_, e.signature.toList, ⟨toList_text e, h.signature⟩, _, e.role.debug.toList,
      ⟨rfl, e.role.plain_debug⟩, e.role, String.ofList_toList, _, e.keeper.toList,
      ⟨rfl, h.keeper⟩, _, e.task.toList, ⟨rfl, h.task⟩, e.contract.toList, rfl, ?_⟩
    simp only [String.ofList_toList]

end Envelope

/-! ## Submissions -/

/-- The envelope of a task in a role. -/
def ExecutionPipeline.envelope (crates : Crates) (pipeline : ExecutionPipeline) (task : RemoteTask)
    (role : ExecutionRole) : Envelope where
  contract := pipeline.anchorContractAddress
  task := task.taskIdHex
  keeper := pipeline.keeperAddress
  role := role
  signature := crates.signatureHex pipeline.signingKeyBytes
    ("execute_drip_split:" ++ pipeline.invocation task role)

theorem ExecutionPipeline.text_envelope (crates : Crates) (pipeline : ExecutionPipeline)
    (task : RemoteTask) (role : ExecutionRole) :
    (pipeline.envelope crates task role).text =
      pipeline.buildSignedTransaction crates task role := by
  apply String.toList_inj.1
  unfold Envelope.text ExecutionPipeline.buildSignedTransaction ExecutionPipeline.envelope
  dsimp only
  -- the signature is the same text on both sides, whatever it signs
  generalize crates.signatureHex pipeline.signingKeyBytes
    ("execute_drip_split:" ++ pipeline.invocation task role) = signature
  unfold ExecutionPipeline.invocation
  simp

theorem ExecutionPipeline.message_envelope (crates : Crates) (pipeline : ExecutionPipeline)
    (task : RemoteTask) (role : ExecutionRole) :
    (pipeline.envelope crates task role).message =
      "execute_drip_split:" ++ pipeline.invocation task role := by
  apply String.toList_inj.1
  unfold Envelope.message ExecutionPipeline.invocation
  simp [ExecutionPipeline.envelope]

variable {χ : Type} {node : Node χ} {n : Nat} {h : List NodeAction} {c c' : NodePool χ}

/-- The envelope says which of the tasks at hand is executed, in the role decided on at the ledger
at hand, and carries the signature of what it says. -/
structure ReadsBack (node : Node χ) (a : Attention) (envelope : String) (e : Envelope) : Prop where
  read : Envelope.read envelope = some e
  contract : e.contract = node.pipeline.anchorContractAddress
  keeper : e.keeper = node.pipeline.keeperAddress
  signature : e.signature = node.crates.signatureHex node.pipeline.signingKeyBytes e.message
  decided : ∃ seq, a.ledger = some seq ∧ ∃ task ∈ a.found, e.task = task.taskIdHex ∧
    decision node.profile task.nextAllowedExecution seq
      (decide (task.designatedKeeper = e.keeper)) = some e.role

/-- Whatever is submitted in a run reads back as what the loop has decided, where signatures, the
address of the keeper and the identifiers of the tasks found have no colon in them. -/
theorem submissions_read_back (hsignature : ∀ key msg, Plain (node.crates.signatureHex key msg))
    (hkeeper : Plain node.pipeline.keeperAddress)
    (htasks : ∀ seq query, node.Queries seq query → ∀ task ∈ query.found, Plain task.taskIdHex)
    (hrun : node.Run n h c) {i : NodeTask} {envelope : String} {r : HttpReply SendTxResult}
    (hstep : Pool.Step node.Answers c
      ⟨i, .discovery (.engine (.postSendTransaction envelope)), r⟩ c') :
    ∃ e, ReadsBack node (attention h) envelope e := by
  obtain ⟨entry, hlog⟩ | ⟨seq, query, hattention, hquery, hjustified⟩ := (loop_meets hrun hstep).1
  · cases hlog
  obtain ⟨task, htask, role, hrole, rfl, -⟩ := hjustified
  refine ⟨node.pipeline.envelope node.crates task role, ?_, rfl, rfl, ?_, ?_⟩
  · rw [Envelope.read_eq_some_iff, ExecutionPipeline.text_envelope]
    exact ⟨rfl, htasks seq query hquery task htask, hkeeper, hsignature _ _⟩
  · rw [ExecutionPipeline.message_envelope]
    rfl
  · have hledger : (attention h).ledger = some seq := congrArg Attention.ledger hattention
    have hfound : (attention h).found = query.found := congrArg Attention.found hattention
    refine ⟨seq, hledger, task, ?_, rfl, hrole⟩
    rw [hfound]
    exact htask

theorem plain_append {s t : String} (hs : Plain s) (ht : Plain t) : Plain (s ++ t) := by
  unfold Plain
  rw [String.toList_append, List.mem_append, not_or]
  exact ⟨hs, ht⟩

theorem plain_sampleSignatureHex (key : Anchor.BytesN 32) (msg : String) :
    Plain (sampleSignatureHex key msg) := by
  unfold sampleSignatureHex
  dsimp only
  split
  · decide
  split
  · apply plain_append <;> decide +kernel
  split
  · apply plain_append <;> decide +kernel
  split
  · apply plain_append <;> decide +kernel
  · decide

theorem submissions_read_back_sample : ∃ c envelope e, sampleNode.Run 2 sampleDispatch c ∧
    ReadsBack sampleNode (attention sampleDispatch) envelope e := by
  obtain ⟨c, c', envelope, r, hrun, hstep⟩ := run_sample_submits
  have htasks : ∀ seq query, sampleNode.Queries seq query → ∀ task ∈ query.found,
      Plain task.taskIdHex := by
    intro seq query hquery task htask
    rw [hquery] at htask
    rw [List.mem_singleton.1 htask]
    decide
  have hsignature : ∀ key msg, Plain (sampleNode.crates.signatureHex key msg) :=
    plain_sampleSignatureHex
  have hkeeper : Plain sampleNode.pipeline.keeperAddress := by decide
  obtain ⟨e, he⟩ := submissions_read_back hsignature hkeeper htasks hrun hstep
  exact ⟨c, envelope, e, hrun, he⟩

end ChronosKeeper.Engine
