import LinuxBtProxy.Rust
import LinuxBtProxy.Lib.Base128

/-!
# LinuxBtProxy.Proto

The wire layer (`src/proto.rs`): varints and the plaintext frame

```
0x00 ++ varint (payload length) ++ varint (message type) ++ payload
```

`nextMessage` is split where the source takes bytes off the buffer: steps 1
to 4 (`parseHeader`) only read, the rest only splits.
-/

namespace LinuxBtProxy

/-! ## Varints -/

/-- The two `std::io::ErrorKind`s of the varint decoder. -/
inductive ErrorKind where
  | invalidData
  | unexpectedEof
deriving Repr, DecidableEq

/-- `std::io::Error`, as `Error::new` builds it. -/
structure Error where
  kind : ErrorKind
  message : String
deriving Repr, DecidableEq

def varintTooLong : Error := ⟨.invalidData, "Varint too long"⟩

def incompleteVarint : Error := ⟨.unexpectedEof, "Incomplete varint"⟩

/-- The loop of `decode_varint` over the bytes from index `i` on. -/
def decodeVarintLoop (result : UInt64) (shift i : Nat) :
    List UInt8 → Except Error (UInt64 × Nat)
  | [] => .error incompleteVarint
  | byte :: rest =>
      let val := (byte &&& 0x7F).toUInt64
      let result := result ||| val <<< UInt64.ofNat shift
      if byte &&& 0x80 = 0 then .ok (result, i + 1)
      else if shift + 7 > 63 then .error varintTooLong
      else decodeVarintLoop result (shift + 7) (i + 1) rest

/-- Decodes a protobuf varint, returning the value and the number of bytes
consumed. -/
def decodeVarint (buf : List UInt8) : Except Error (UInt64 × Nat) :=
  decodeVarintLoop 0 0 0 buf

theorem toNat_shiftRight_seven (v : UInt64) : (v >>> 7).toNat = v.toNat / 128 := by
  rw [UInt64.toNat_shiftRight]
  simp [Nat.shiftRight_eq_div_pow]

/-- Encodes a protobuf varint: seven bits a byte, the top bit set on all but
the last. -/
def encodeVarint (value : UInt64) : List UInt8 :=
  let byte := (value &&& 0x7F).toUInt8
  let value' := value >>> 7
  if h : value' ≠ 0 then (byte ||| 0x80) :: encodeVarint value' else [byte]
termination_by value.toNat
decreasing_by
  have hpos : (value >>> 7).toNat ≠ 0 := fun h0 => h (UInt64.toNat_inj.mp h0)
  rw [toNat_shiftRight_seven] at hpos ⊢
  omega

/-! ## Frames -/

/-- What `next_message` knows when it starts to take bytes off the buffer. -/
structure Header where
  offset : Nat
  payloadLen : Nat
  msgType : UInt64
deriving Repr, DecidableEq

/-- Steps 1 to 4 of `next_message`: `none` is an early `return None`. -/
def parseHeader (buf : List UInt8) : Except Panic (Option Header) :=
  -- Step 1: the framing byte
  match buf with
  | [] => .ok none
  | start :: _ =>
      if start ≠ 0x00 then .ok none
      else do
        let offset := 1
        -- Step 2: the message length
        match decodeVarint (← sliceFrom buf offset) with
        | .error _ => return none
        | .ok (length, lenSize) =>
            let offset := offset + lenSize
            -- Step 3: the completeness test, on the offset before the type
            if buf.length < usizeAdd offset length.toNat then return none
            -- Step 4: the message type
            match decodeVarint (← sliceFrom buf offset) with
            | .error _ => return none
            | .ok (msgType, typeSize) =>
                return some ⟨offset + typeSize, length.toNat, msgType⟩

/-- `next_message`: the first message of the buffer, if it holds one, and the
buffer afterwards. -/
def nextMessage (buf : List UInt8) :
    Except Panic (Option (UInt32 × List UInt8) × List UInt8) := do
  match ← parseHeader buf with
  | none => return (none, buf)
  | some ⟨offset, payloadLen, msgType⟩ =>
      let (head, buf) ← splitTo buf (usizeAdd offset payloadLen)
      let (_, payload) ← splitOff head offset
      return (some (msgType.toUInt32, payload), buf)

end LinuxBtProxy
