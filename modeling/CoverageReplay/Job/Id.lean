import CoverageReplay.Error
import CoverageReplay.Json.Reader
import CoverageReplay.Text.Blank
import CoverageReplay.Text.Quoted

/-!
# Identifiers of jobs

Sixteen bytes, written as 32 hexadecimal digits in groups of 8, 4, 4, 4 and 12. A text may also give
the digits without hyphens, or the groups in braces or after `urn:uuid:`, in capitals or not.
-/

namespace CoverageReplay

/-- Names a job. -/
structure JobId where
  bytes : List UInt8
  deriving DecidableEq, Repr, Inhabited

namespace JobId

/-- The bytes that pairs of hexadecimal digits stand for. -/
def hexBytes? : List Char → Option (List UInt8)
  | [] => some []
  | a :: b :: rest => do
    let high ← Json.hexDigit? a
    let low ← Json.hexDigit? b
    return UInt8.ofNat (high * 16 + low) :: (← hexBytes? rest)
  | [_] => none

/-- Cuts a text into the five groups of digits, if hyphens separate them. -/
def groups? (cs : List Char) : Option (List Char) :=
  let hyphens := [8, 13, 18, 23].all fun place => cs[place]? = some '-'
  if cs.length = 36 && hyphens then
    some (cs.take 8 ++ (cs.drop 9).take 4 ++ (cs.drop 14).take 4 ++
      (cs.drop 19).take 4 ++ cs.drop 24)
  else none

/-- The digits of an identifier without what stands around them. -/
def digits? (cs : List Char) : Option (List Char) :=
  if cs.length = 32 then some cs
  else if cs.length = 38 && cs.head? = some '\x7b' && cs.getLast? = some '\x7d' then
    groups? (cs.drop 1).dropLast
  else
    match Text.afterStart "urn:uuid:".toList (Text.lowerAscii (cs.take 9)) with
    | some _ => groups? (cs.drop 9)
    | none => groups? cs

/-- The identifier that a text names. -/
def parse? (text : String) : Except ReplayError JobId :=
  match (digits? text.toList).bind hexBytes? with
  | some bytes => .ok ⟨bytes⟩
  | none => .error (.config ("invalid job id " ++ Text.quote text ++ ": not an identifier"))

/-- Two hexadecimal digits. -/
def hexPair (b : UInt8) : List Char :=
  [Nat.digitChar (b.toNat / 16), Nat.digitChar (b.toNat % 16)]

/-- The written form. -/
def text (id : JobId) : String :=
  let digits := fun start count : Nat => ((id.bytes.drop start).take count).flatMap hexPair
  String.ofList (digits 0 4 ++ '-' :: digits 4 2 ++ '-' :: digits 6 2 ++ '-' :: digits 8 2 ++
    '-' :: digits 10 6)

end JobId

end CoverageReplay
