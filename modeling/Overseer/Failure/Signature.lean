import Overseer.Failure.Noise
import Overseer.Digest
import Overseer.Text.Utf8
import Overseer.Text.Hex

/-! # Failure signatures

Two failures are taken for the same one when their texts agree up to noise. The signature is the digest
of what is left without it. A history repeats itself when the run of equal signatures at its end is
longer than allowed.
-/

namespace Overseer

abbrev Signature := String

def failureSignature (text : String) : Signature :=
  Text.hexText (Digest.sha256 (Text.encode (Noise.normalizeChars text.toList)))

def trailingRepeats (history : List Signature) : Nat :=
  match history.reverse with
  | [] => 0
  | last :: earlier => 1 + (earlier.takeWhile (· == last)).length

def isRepeating (history : List Signature) (allowed : Nat) : Bool :=
  decide (allowed < trailingRepeats history)

end Overseer
