import Mathlib.Data.List.Basic

/-!
# Messages carved out of a stream

`Carved stream messages rest`: the messages are pieces of the stream, in order and apart from each
other, and `rest` is what follows the last of them.  What a framer keeps of a stream is such a rest:
`Carved.push` is the rule for the bytes that come next.
-/

namespace WireTap

variable {β : Type}

inductive Carved : List β → List (List β) → List β → Prop where
  | rest (bytes : List β) : Carved bytes [] bytes
  /-- Bytes that belong to no message. -/
  | skip (noise : List β) {stream : List β} {messages : List (List β)} {rest : List β} :
      Carved stream messages rest → Carved (noise ++ stream) messages rest
  | message (m : List β) {stream : List β} {messages : List (List β)} {rest : List β} :
      Carved stream messages rest → Carved (m ++ stream) (m :: messages) rest

namespace Carved

variable {stream rest : List β} {messages : List (List β)}

/-- More bytes come, and messages are carved out of them and what was left. -/
theorem push (h : Carved stream messages rest) {bytes rest' : List β} {more : List (List β)}
    (h' : Carved (rest ++ bytes) more rest') :
    Carved (stream ++ bytes) (messages ++ more) rest' := by
  induction h with
  | rest bytes => exact h'
  | skip noise _ ih =>
    rw [List.append_assoc]
    exact skip noise (ih h')
  | message m _ ih =>
    rw [List.append_assoc]
    exact message m (ih h')

/-- A message is a piece of the stream. -/
theorem isInfix (h : Carved stream messages rest) {m : List β} (hm : m ∈ messages) :
    m <:+: stream := by
  induction h with
  | rest bytes => exact absurd hm List.not_mem_nil
  | skip noise _ ih => exact (ih hm).trans (List.suffix_append _ _).isInfix
  | message m' _ ih =>
    rcases List.mem_cons.mp hm with rfl | hm
    · exact (List.prefix_append _ _).isInfix
    · exact (ih hm).trans (List.suffix_append _ _).isInfix

end Carved

end WireTap
