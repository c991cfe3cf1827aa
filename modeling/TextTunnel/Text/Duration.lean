/-!
# Durations as text

Time is counted in milliseconds. A duration of a second or more is shown in seconds, with as many
decimal places as it needs; a shorter one in milliseconds; and none at all as `0ns`.
-/

namespace TextTunnel.Text

/-- Three decimal places without the zeros at the end, behind a point; nothing if all are zero. -/
def fractionText (thousandths : Nat) : String :=
  if thousandths = 0 then ""
  else if thousandths % 100 = 0 then "." ++ toString (thousandths / 100)
  else if thousandths % 10 = 0 then
    "." ++ toString (thousandths / 100) ++ toString (thousandths / 10 % 10)
  else
    "." ++ toString (thousandths / 100) ++ toString (thousandths / 10 % 10)
      ++ toString (thousandths % 10)

/-- A duration in milliseconds as text. -/
def durationText (ms : Nat) : String :=
  if 1000 ≤ ms then toString (ms / 1000) ++ fractionText (ms % 1000) ++ "s"
  else if ms = 0 then "0ns"
  else toString ms ++ "ms"

end TextTunnel.Text
