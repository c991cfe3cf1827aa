import TextTunnel.Field.Read
import TextTunnel.Wire

/-!
# Body layouts

A body is the author's name and id and then the fields of one variant. A layout is a pair of
functions that agree on it: a writer is given what has been written so far and gives that with the
body behind it, or the reason why there is none; a reader takes the body off the front of the input.

Limits hold on both sides. A writer checks numbers before anything else; a reader has read the
whole body when it checks them.
-/

namespace TextTunnel

/-- The author: a name of limited length, then the id. -/
def writeAuthor (author : Peer) (written : Bytes) : Except PacketError Bytes := do
  let written ← Field.putString Wire.maxSenderChars author.name written
  return written ++ Field.uuid author.id

/-- Reads what `writeAuthor` writes. -/
def readAuthor : Reader Peer := do
  let name ← Reader.string Wire.maxSenderChars
  let id ← Reader.uuid
  pure ⟨name, id⟩

/-- Refuses a mark off the board, the column first. -/
def checkTicTacToe (x y : UInt8) : Except PacketError Unit :=
  if Wire.ticTacToeSize ≤ x.toNat then .error (.malformed (.outOfRange "x" x.toNat))
  else if Wire.ticTacToeSize ≤ y.toNat then .error (.malformed (.outOfRange "y" y.toNat))
  else .ok ()

/-- Refuses a column off the board. -/
def checkConnectFour (x : Int32) : Except PacketError Unit :=
  if 0 ≤ x.toInt ∧ x.toInt < Wire.connectFourWidth then .ok ()
  else .error (.malformed (.outOfRange "x" x.toInt))

namespace Packet

/-- Writes the body of a packet in the layout of its own variant. -/
def writeBody (p : Packet) (written : Bytes) : Except PacketError Bytes :=
  match p.content with
  | .message text => do
    let written ← writeAuthor p.sender written
    Field.putString Wire.maxMessageChars text written
  | .startTwoPlayerGame accept game => do
    let written ← writeAuthor p.sender written
    Field.putString Wire.maxIdChars game.id (written ++ Field.bool accept)
  | .putTicTacToeMark x y => do
    checkTicTacToe x y
    let written ← writeAuthor p.sender written
    return written ++ [x, y]
  | .putConnectFourPiece x => do
    checkConnectFour x
    let written ← writeAuthor p.sender written
    return written ++ Field.varintSigned x

/-- Reads the content of one variant, which follows the author. -/
def readContent : PacketKind → Reader Content
  | .message => do
    let text ← Reader.string Wire.maxMessageChars
    pure (.message text)
  | .startTwoPlayerGame => do
    let accept ← Reader.bool
    let id ← Reader.string Wire.maxIdChars
    match Game.ofId? id with
    | some game => pure (.startTwoPlayerGame accept game)
    | none => Reader.malformed (.unknownGame id)
  | .putTicTacToeMark => do
    let x ← Reader.byte
    let y ← Reader.byte
    Reader.ofExcept (checkTicTacToe x y)
    pure (.putTicTacToeMark x y)
  | .putConnectFourPiece => do
    let x ← Reader.varintSigned
    Reader.ofExcept (checkConnectFour x)
    pure (.putConnectFourPiece x)

/-- Reads a body in the layout of one variant. -/
def readBody (kind : PacketKind) : Reader Packet := do
  let sender ← readAuthor
  let content ← readContent kind
  pure ⟨sender, content⟩

end Packet

end TextTunnel
