import SharedDocument.Json.Reader
import SharedDocument.Wire.Session

/-! Settings from text. A setting may be given only once; members that are no settings are skipped
without a look at their values. -/

namespace SharedDocument.SessionConfig

open Json.Reader

def readMembers : Nat → List String → SessionConfig → List Char → Option (SessionConfig × List Char)
  | 0, _, _, _ => none
  | fuel + 1, earlier, config, chars => do
      let (name, rest) ← key? .strict chars
      let isKnown := fieldNames.contains name
      if isKnown && earlier.contains name then none
      let (given, rest) ← value (if isKnown then .strict else .loose) (fuelFor rest) rest
      let config ← config.override name given
      match skipBlank rest with
      | ',' :: rest => readMembers fuel (name :: earlier) config rest
      | '\x7d' :: rest => return (config, rest)
      | _ => none

def parse? (text : String) : Option SessionConfig :=
  match skipBlank text.toList with
  | '\x7b' :: rest =>
      match skipBlank rest with
      | '\x7d' :: rest => if isFinished rest then some defaults else none
      | rest =>
          match readMembers (rest.length + 1) [] defaults rest with
          | some (config, rest) => if isFinished rest then some config else none
          | none => none
  | _ => (Json.parse? text).bind decode?

end SharedDocument.SessionConfig
