import TextTunnel.Peer

/-!
# Packets

A packet is one message of the tunnel's own protocol: who wrote it, and one of four contents. The
author travels inside the packet and is only a claim until the relay's report confirms it
(`Packet.isAuthoredBy`).
-/

namespace TextTunnel

/-- The four variants of a packet. -/
inductive PacketKind where
  | message
  | startTwoPlayerGame
  | putTicTacToeMark
  | putConnectFourPiece
  deriving DecidableEq, Repr

namespace PacketKind

/-- All variants, in the order of their usual type ids. -/
def all : List PacketKind :=
  [message, startTwoPlayerGame, putTicTacToeMark, putConnectFourPiece]

/-- The namespaced name shown in logs. -/
def name : PacketKind → String
  | message => "relaytun:message"
  | startTwoPlayerGame => "relaytun:start_two_player_game"
  | putTicTacToeMark => "relaytun:put_tic_tac_toe_mark"
  | putConnectFourPiece => "relaytun:put_connect_four_piece"

/-- The word that marks the variant in a packet's JSON form. -/
def tag : PacketKind → String
  | message => "Message"
  | startTwoPlayerGame => "StartTwoPlayerGame"
  | putTicTacToeMark => "PutTicTacToeMark"
  | putConnectFourPiece => "PutConnectFourPiece"

/-- The variant with the given tag. -/
def ofTag? (s : String) : Option PacketKind :=
  all.find? fun k => k.tag == s

theorem mem_all (k : PacketKind) : k ∈ all := by
  cases k <;> simp [all]

@[simp] theorem ofTag?_tag (k : PacketKind) : ofTag? k.tag = some k := by
  cases k <;> decide

end PacketKind

/-- The two-player games that an invitation can name. -/
inductive Game where
  | ticTacToe
  | connectFour
  deriving DecidableEq, Repr

namespace Game

/-- Both games. -/
def all : List Game := [ticTacToe, connectFour]

/-- The namespaced id that travels in a packet. -/
def id : Game → String
  | ticTacToe => "relaytun:tictactoe"
  | connectFour => "relaytun:connectfour"

/-- The game with the given namespaced id. -/
def ofId? (s : String) : Option Game :=
  all.find? fun g => g.id == s

/-- The word for the game in a packet's JSON form. -/
def tag : Game → String
  | ticTacToe => "TicTacToe"
  | connectFour => "ConnectFour"

/-- The game with the given tag. -/
def ofTag? (s : String) : Option Game :=
  all.find? fun g => g.tag == s

@[simp] theorem ofId?_id (g : Game) : ofId? g.id = some g := by
  cases g <;> decide

@[simp] theorem ofTag?_tag (g : Game) : ofTag? g.tag = some g := by
  cases g <;> decide

end Game

/-- What a packet says. -/
inductive Content where
  /-- A private chat line. -/
  | message (text : String)
  /-- A game invitation, or with `accept` the acceptance of one. -/
  | startTwoPlayerGame (accept : Bool) (game : Game)
  /-- A tic-tac-toe move at column `x`, row `y`. -/
  | putTicTacToeMark (x y : UInt8)
  /-- A connect-four move that drops a piece into column `x`. -/
  | putConnectFourPiece (x : Int32)
  deriving DecidableEq

/-- The variant of a content. -/
def Content.kind : Content → PacketKind
  | message _ => .message
  | startTwoPlayerGame _ _ => .startTwoPlayerGame
  | putTicTacToeMark _ _ => .putTicTacToeMark
  | putConnectFourPiece _ => .putConnectFourPiece

/-- A packet: the author it claims, and its content. -/
structure Packet where
  /-- The participant that the packet claims as its author. -/
  sender : Peer
  content : Content
  deriving DecidableEq

namespace Packet

/-- The variant of a packet. -/
def kind (p : Packet) : PacketKind :=
  p.content.kind

/-- Whether the claimed author is the given participant, in name and id. -/
def isAuthoredBy (p : Packet) (author : Peer) : Bool :=
  p.sender == author

@[simp] theorem isAuthoredBy_iff {p : Packet} {author : Peer} :
    p.isAuthoredBy author ↔ p.sender.name = author.name ∧ p.sender.id = author.id := by
  rcases p with ⟨⟨n, i⟩, c⟩
  rcases author with ⟨m, j⟩
  simp [isAuthoredBy]

end Packet

end TextTunnel
