import Mathlib.Algebra.Order.Ring.Rat
import SaasFoundation.Lib.Prog

/-!
# The queue

`sqs-queue.ts`. A batch is sent in chunks of ten, one request after another.
A request that SQS refuses messages of ends the batch: the error names the
messages that were refused, not those that were never sent. A request is
executed once.
-/

namespace SaasFoundation.Foundation.Queue

open Lib

structure QueueBatchEntry (T : Type) where
  body : T
  delaySeconds : Option ℚ

structure BatchRequestEntry where
  Id : String
  MessageBody : Option String
  DelaySeconds : Option ℚ
  deriving DecidableEq

/-- A message that was refused. -/
structure BatchResultErrorEntry where
  Id : Option String

inductive SqsRequest where
  | sendMessage (QueueUrl : String) (MessageBody : Option String) (DelaySeconds : Option ℚ)
  | sendMessageBatch (QueueUrl : String) (Entries : List BatchRequestEntry)

/-- Of a batch, `result.Failed`. -/
abbrev SqsReply : SqsRequest → Type
  | .sendMessage .. => Except String Unit
  | .sendMessageBatch .. => Except String (Option (List BatchResultErrorEntry))

abbrev Handler (α : Type) := Prog SqsRequest SqsReply α
abbrev SqsEvent := Event SqsRequest SqsReply

def request (op : SqsRequest) : Handler (SqsReply op) := Prog.call op

inductive QueueError where
  | queueSendError (message : String)
  | queueBatchError (message : String) (failedIds : List String)
  /-- What something else has thrown. -/
  | thrown (cause : String)

def sqsMaxBatchSize : Nat := 10

/-- `JSON.stringify` may throw, and has no text for some values. -/
structure SqsQueue (T : Type) where
  queueUrl : String
  stringify : T → Except String (Option String)

namespace SqsQueue

variable {T : Type} (queue : SqsQueue T)

def send (message : T) (delaySeconds : Option ℚ) : Handler (Except QueueError Unit) :=
  match queue.stringify message with
  | .error e => pure (.error (.queueSendError ("SQS send failed: " ++ e)))
  | .ok body => do
      let sent : Except String Unit ←
        request (.sendMessage queue.queueUrl body delaySeconds)
      match sent with
      | .error e => pure (.error (.queueSendError ("SQS send failed: " ++ e)))
      | .ok _ => pure (.ok ())

/-- The entry of the message at an index of the batch. -/
def batchEntry (index : Nat) (msg : QueueBatchEntry T) : Except String BatchRequestEntry := do
  let body ← queue.stringify msg.body
  return ⟨Nat.repr index, body, msg.delaySeconds⟩

/-- The entries of a chunk. -/
def chunkEntries (offset : Nat) : List (QueueBatchEntry T) →
    Except String (List BatchRequestEntry)
  | [] => .ok []
  | msg :: chunk => do
      let entry ← queue.batchEntry offset msg
      let entries ← chunkEntries (offset + 1) chunk
      return entry :: entries

/-- The loop of `sendBatch`. -/
def sendFrom (messages : List (QueueBatchEntry T)) (offset : Nat) :
    Handler (Except QueueError Unit) :=
  if offset < messages.length then
    match queue.chunkEntries offset ((messages.drop offset).take sqsMaxBatchSize) with
    | .error e => pure (.error (.thrown e))
    | .ok entries => do
        let result : Except String (Option (List BatchResultErrorEntry)) ←
          request (.sendMessageBatch queue.queueUrl entries)
        match result with
        | .error e => pure (.error (.thrown e))
        | .ok reported =>
            let failed := reported.getD []
            if 0 < failed.length then
              pure (.error (.queueBatchError
                ("SQS batch send had " ++ Nat.repr failed.length ++ " failure(s)")
                (failed.map fun f => f.Id.getD "<unknown>")))
            else sendFrom messages (offset + sqsMaxBatchSize)
  else pure (.ok ())
termination_by messages.length - offset
decreasing_by
  have : 0 < sqsMaxBatchSize := by decide
  omega

def sendBatch (messages : List (QueueBatchEntry T)) : Handler (Except QueueError Unit) :=
  if messages.length = 0 then pure (.ok ()) else queue.sendFrom messages 0

end SqsQueue

end SaasFoundation.Foundation.Queue
