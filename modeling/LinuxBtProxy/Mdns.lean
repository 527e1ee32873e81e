import LinuxBtProxy.Handlers
import LinuxBtProxy.Text.Hex
import LinuxBtProxy.Utils.Mac

/-!
# LinuxBtProxy.Mdns

The service that is announced by mDNS (`src/mdns.rs`), and what it says about
the adapter.

* `parseMac_macRecord` — the `mac` record is read as the address of the adapter;
* `serviceName_eq_iff` — when two proxies have the same name.
-/

namespace LinuxBtProxy

/-- `env!("CARGO_PKG_VERSION")`. -/
def CARGO_PKG_VERSION : String := "0.1.2"

/-- `str::to_lowercase`, of ASCII text. -/
def toLowercase (s : String) : String := String.ofList (s.toList.map Char.toLower)

/-- The arguments of `ServiceInfo::new`, and whether `enable_addr_auto` was
called. -/
structure ServiceInfo where
  serviceType : String
  name : String
  hostname : String
  ip : String
  port : UInt16
  properties : List (String × String)
  addrAuto : Bool
deriving DecidableEq

/-- Which of the three calls that are unwrapped succeed. -/
structure MdnsReply where
  daemon : Bool
  serviceInfo : Bool
  register : Bool

/-- The last four bytes of the adapter's address. -/
def shortBtMac (ctx : ProxyContext) : String := formatMac (ctx.btMac.toList.drop 2) ""

/-- The host and the adapter make the name. -/
def serviceName (ctx : ProxyContext) : String := ctx.hostname ++ "_" ++ shortBtMac ctx

/-- The records of the service; the address is in lower case. -/
def txtRecords (ctx : ProxyContext) : List (String × String) :=
  let mac := formatMac ctx.btMac.toList ":"
  [("friendly_name", "Bluetooth Proxy " ++ shortBtMac ctx), ("version", CARGO_PKG_VERSION),
    ("mac", toLowercase mac), ("platform", "linux"), ("network", "ethernet")]

/-- The service that is announced. -/
def serviceInfo (ctx : ProxyContext) : ServiceInfo where
  serviceType := "_esphomelib._tcp.local."
  name := serviceName ctx
  hostname := ctx.hostname ++ ".local."
  ip := ""
  port := ctx.port
  properties := txtRecords ctx
  addrAuto := true

/-- The service that is registered, or the message of the panic.  No call
returns the error of `anyhow::Result`. -/
def startMdns (reply : MdnsReply) (ctx : ProxyContext) : Except String ServiceInfo :=
  if !reply.daemon then .error "Failed to create mDNS daemon"
  else if !reply.serviceInfo then .error "Invalid service info"
  else if !reply.register then .error "Failed to register mDNS service"
  else .ok (serviceInfo ctx)

/-- None of the three calls fails. -/
def MdnsReply.Succeeds (reply : MdnsReply) : Prop :=
  reply.daemon = true ∧ reply.serviceInfo = true ∧ reply.register = true

/-- The service is registered when none of the calls fails. -/
theorem startMdns_cases (reply : MdnsReply) (ctx : ProxyContext) :
    (¬ reply.Succeeds ∧ ∃ message, startMdns reply ctx = .error message) ∨
      reply.Succeeds ∧ startMdns reply ctx = .ok (serviceInfo ctx) := by
  unfold startMdns MdnsReply.Succeeds
  cases reply.daemon <;> cases reply.serviceInfo <;> cases reply.register <;> simp

/-! ## The address in the records -/

/-- Lower case of an upper-case digit is the lower-case digit. -/
theorem toLower_upperHexDigit {n : Nat} (h : n < 16) :
    (upperHexDigit n).toLower = lowerHexDigit n := by
  have hall : ∀ n : Fin 16, (upperHexDigit n).toLower = lowerHexDigit n := by decide
  exact hall ⟨n, h⟩

/-- Lower case of the digits of a byte. -/
theorem toLower_upperHex2 (b : UInt8) : (upperHex2 b).map Char.toLower = lowerHex2 b := by
  have hb := b.toNat_lt
  have hhi := toLower_upperHexDigit (n := b.toNat / 16) (by omega)
  have hlo := toLower_upperHexDigit (n := b.toNat % 16) (by omega)
  rw [upperHex2, lowerHex2, List.map_cons, List.map_singleton, hhi, hlo]

/-- A map goes through the separator and the parts. -/
theorem map_intercalate {α β : Type} (f : α → β) (sep : List α) (xs : List (List α)) :
    (sep.intercalate xs).map f = (sep.map f).intercalate (xs.map (List.map f)) := by
  induction xs with
  | nil => rfl
  | cons x xs ih =>
      cases xs with
      | nil => simp
      | cons y xs =>
          rw [List.intercalate_cons_cons, List.map_append, List.map_append, ih, List.map_cons,
            List.map_cons, List.map_cons, List.intercalate_cons_cons]

/-- The address in lower-case letters. -/
theorem toLowercase_formatMac (mac : List UInt8) :
    toLowercase (formatMac mac ":") = String.ofList ([':'].intercalate (mac.map lowerHex2)) := by
  have hsep : ":".toList = [':'] := by rfl
  have hbytes : (mac.map upperHex2).map (List.map Char.toLower) = mac.map lowerHex2 := by
    rw [List.map_map]
    exact List.map_congr_left fun b _ => toLower_upperHex2 b
  rw [toLowercase, formatMac, String.toList_ofList, hsep, map_intercalate, hbytes]
  rfl

/-- The `mac` record is read as the address of the adapter. -/
theorem parseMac_macRecord (m : Vector UInt8 6) :
    parseMac (toLowercase (formatMac m.toList ":")) = .ok m := by
  rw [toLowercase_formatMac]
  exact parseMac_intercalate fromStrRadix16_lowerHex2 m

/-! ## The name -/

/-- The four bytes without separator. -/
theorem toList_shortBtMac (ctx : ProxyContext) :
    (shortBtMac ctx).toList = (ctx.btMac.toList.drop 2).flatMap upperHex2 := by
  have hempty : ∀ xs : List (List Char), [].intercalate xs = xs.flatten := by
    intro xs
    induction xs with
    | nil => rfl
    | cons x xs ih =>
        cases xs with
        | nil => simp
        | cons y xs => simp [List.intercalate_cons_cons, ih]
  rw [shortBtMac, formatMac, String.toList_ofList]
  exact hempty _

/-- A byte is determined by its digits. -/
theorem upperHex2_injective {b c : UInt8} (h : upperHex2 b = upperHex2 c) : b = c := by
  have hb := fromStrRadix16_upperHex2 b
  rw [h, fromStrRadix16_upperHex2] at hb
  exact (Option.some.inj hb).symm

/-- Bytes are determined by their digits. -/
theorem flatMap_upperHex2_injective {bytes bytes' : List UInt8}
    (h : bytes.flatMap upperHex2 = bytes'.flatMap upperHex2) : bytes = bytes' := by
  induction bytes generalizing bytes' with
  | nil =>
      cases bytes' with
      | nil => rfl
      | cons c bytes' => simp [upperHex2] at h
  | cons b bytes ih =>
      cases bytes' with
      | nil => simp [upperHex2] at h
      | cons c bytes' =>
          rw [List.flatMap_cons, List.flatMap_cons] at h
          obtain ⟨hb, hrest⟩ := List.append_inj h rfl
          rw [upperHex2_injective hb, ih hrest]

/-- Four bytes take eight digits. -/
theorem length_shortBtMac (ctx : ProxyContext) : (shortBtMac ctx).toList.length = 8 := by
  have hflat : ∀ bytes : List UInt8, (bytes.flatMap upperHex2).length = 2 * bytes.length := by
    intro bytes
    induction bytes with
    | nil => rfl
    | cons b bytes ih =>
        rw [List.flatMap_cons, List.length_append, ih, List.length_cons, upperHex2]
        simp only [List.length_cons, List.length_nil]
        omega
  rw [toList_shortBtMac, hflat, List.length_drop, Vector.length_toList]

/-- **Names on the network**: two proxies have the same service name when they
have the same hostname and adapters that agree in the last four bytes. -/
theorem serviceName_eq_iff (ctx ctx' : ProxyContext) :
    serviceName ctx = serviceName ctx' ↔
      ctx.hostname = ctx'.hostname ∧ ctx.btMac.toList.drop 2 = ctx'.btMac.toList.drop 2 := by
  have hshort : shortBtMac ctx = shortBtMac ctx' ↔
      ctx.btMac.toList.drop 2 = ctx'.btMac.toList.drop 2 := by
    rw [← String.toList_inj, toList_shortBtMac, toList_shortBtMac]
    exact ⟨flatMap_upperHex2_injective, fun h => by rw [h]⟩
  rw [← hshort]
  constructor
  · intro h
    have hlist := String.toList_inj.mpr h
    simp only [serviceName, String.toList_append] at hlist
    obtain ⟨hfront, hback⟩ := List.append_inj' hlist (by rw [length_shortBtMac, length_shortBtMac])
    exact ⟨String.toList_inj.mp (List.append_inj_left' hfront rfl), String.toList_inj.mp hback⟩
  · rintro ⟨hhost, hmac⟩
    rw [serviceName, serviceName, hhost, hmac]

end LinuxBtProxy
