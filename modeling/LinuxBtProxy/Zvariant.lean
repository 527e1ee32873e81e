/-!
# LinuxBtProxy.Zvariant

D-Bus values, as far as the program looks into them.  `zvariant` decides which
value converts to which Rust type; a conversion that fails is `none`.
-/

namespace LinuxBtProxy

/-- The conversions of `zvariant::OwnedValue` and `Value`. -/
class Variant (V : Type) where
  /-- `v.downcast_ref::<String>().ok()` -/
  downcastRefString : V → Option String
  /-- `v.downcast_ref::<i16>().ok()` -/
  downcastRefI16 : V → Option Int16
  /-- `v.downcast_ref::<bool>().ok()` -/
  downcastRefBool : V → Option Bool
  /-- `v.downcast::<String>().ok()` -/
  downcastString : V → Option String
  /-- `v.downcast::<u16>().ok()` -/
  downcastU16 : V → Option UInt16
  /-- `v.downcast::<Vec<u8>>().ok()` -/
  downcastBytes : V → Option (List UInt8)
  /-- `Vec::<String>::try_from(v).ok()` -/
  tryStrings : V → Option (List String)
  /-- `Dict::try_from(v).ok()`, with the entries in the order of iteration. -/
  tryDict : V → Option (List (V × V))

/-- `HashMap<String, OwnedValue>`. -/
abbrev Props (V : Type) := String → Option V

/-- The values that occur in the properties of a device. -/
inductive Value where
  | str (s : String)
  | i16 (v : Int16)
  | u16 (v : UInt16)
  | bool (b : Bool)
  | bytes (data : List UInt8)
  | strs (ss : List String)
  | dict (entries : List (Value × Value))

instance : Variant Value where
  downcastRefString
    | .str s => some s
    | _ => none
  downcastRefI16
    | .i16 v => some v
    | _ => none
  downcastRefBool
    | .bool b => some b
    | _ => none
  downcastString
    | .str s => some s
    | _ => none
  downcastU16
    | .u16 v => some v
    | _ => none
  downcastBytes
    | .bytes data => some data
    | _ => none
  tryStrings
    | .strs ss => some ss
    | _ => none
  tryDict
    | .dict entries => some entries
    | _ => none

/-- The properties with these values and no others. -/
def Props.ofList {V : Type} (entries : List (String × V)) : Props V := fun key => entries.lookup key

end LinuxBtProxy
