import SlotRouter.Frame.Decode

/-!
# Reading frames from a stream

A stream hands over what the peer sends in chunks and then ends. Reading a frame takes chunks until the decoder has a
whole frame; a stream that ends before that counts as closed.
-/

namespace SlotRouter

/-- Chunks that are still to come, and what the decoder holds of the earlier ones. -/
structure Stream where
  decoder : Decoder := {}
  chunks : List Bytes := []

namespace Stream

/-- Reads a frame from the chunks that are to come. -/
def readFrom (decoder : Decoder) (chunks : List Bytes) : Except Error Frame × Stream :=
  match decoder.decode with
  | (.frame f, decoder) => (.ok f, { decoder, chunks })
  | (.faulty fault, decoder) => (.error (.protocol fault), { decoder, chunks })
  | (.incomplete, decoder) =>
    match chunks with
    | [] => (.error .closed, { decoder })
    | chunk :: chunks => readFrom (decoder.append chunk) chunks
termination_by structural chunks

/-- Reads the next frame. -/
def read (s : Stream) : Except Error Frame × Stream := readFrom s.decoder s.chunks

/-- Reads `n` times. -/
def readMany : Nat → Stream → List (Except Error Frame)
  | 0, _ => []
  | n + 1, s =>
    let (answer, s) := s.read
    answer :: readMany n s

end Stream
end SlotRouter
