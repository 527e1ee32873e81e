import LinuxBtProxy.Text

/-!
# LinuxBtProxy.Utils

MAC addresses as text (`src/utils.rs`).
-/

namespace LinuxBtProxy

/-- `format_mac`: two upper-case digits a byte. -/
def formatMac (mac : List UInt8) (sep : String) : String :=
  String.ofList (List.intercalate sep.toList (mac.map upperHex2))

/-- The error for another number of parts. -/
def invalidMacFormat : String := "Invalid MAC format: expected 6 hex bytes separated by ':'"

/-- `format!("Invalid hex byte: '{part}'")`. -/
def invalidHexByte (part : List Char) : String :=
  "Invalid hex byte: '" ++ String.ofList part ++ "'"

/-- The loop of `parse_mac` from part `i` on.  There are as many parts as bytes
in `mac`, so every index is in bounds. -/
def parseMacLoop (mac : Vector UInt8 6) (i : Nat) :
    List (List Char) → Except String (Vector UInt8 6)
  | [] => .ok mac
  | part :: parts =>
      match fromStrRadix16 part with
      | some byte => parseMacLoop (mac.setIfInBounds i byte) (i + 1) parts
      | none => .error (invalidHexByte part)

/-- `parse_mac`: six parts between colons, each read in radix sixteen. -/
def parseMac (s : String) : Except String (Vector UInt8 6) :=
  let parts := s.toList.splitOn ':'
  if parts.length ≠ 6 then .error invalidMacFormat
  else parseMacLoop (Vector.replicate 6 0) 0 parts

end LinuxBtProxy
