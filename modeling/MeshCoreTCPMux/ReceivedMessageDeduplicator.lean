import MeshCoreTCPMux.Protocol.Responses

/-!
# Recently received logical messages

The bounded history of text identities that suppresses repeated copies of one logical message.
-/

namespace MeshCoreTCPMux

structure ReceivedMessageDeduplicator where
  seen : Finset String := ∅
  order : List String := []

namespace ReceivedMessageDeduplicator

/-- The number of identities remembered. -/
def capacity : Nat := 1024

/-- Return false for non-text inbox results. The first occurrence enters the bounded history; later
occurrences remain duplicates until evicted. -/
def duplicate (d : ReceivedMessageDeduplicator) (payload : Bytes) :
    Bool × ReceivedMessageDeduplicator :=
  match Protocol.receivedTextMessageIdentity payload with
  | none => (false, d)
  | some identity =>
    if identity ∈ d.seen then (true, d)
    else
      let d' : ReceivedMessageDeduplicator :=
        if d.order.length ≥ capacity then
          match d.order with
          | [] => d
          | oldest :: rest => { seen := d.seen.erase oldest, order := rest }
        else d
      (false, { seen := insert identity d'.seen, order := d'.order ++ [identity] })

end ReceivedMessageDeduplicator

end MeshCoreTCPMux
