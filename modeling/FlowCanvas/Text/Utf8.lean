namespace FlowCanvas.Text.Utf8

inductive Fault where
  | invalidStart
  | invalidContinuation
  | unexpectedEnd
  deriving DecidableEq, Repr

def Fault.reason : Fault → String
  | .invalidStart => "invalid start byte"
  | .invalidContinuation => "invalid continuation byte"
  | .unexpectedEnd => "unexpected end of data"

/-- The first undecodable stretch: where it starts, its first byte, and how many bytes it has. -/
structure DecodeError where
  position : Nat
  first : UInt8
  length : Nat
  fault : Fault
  deriving DecidableEq, Repr

def hex (width n : Nat) : String :=
  let digits := (Nat.toDigits 16 n)
  String.ofList (List.replicate (width - digits.length) '0' ++ digits)

def DecodeError.message (e : DecodeError) : String :=
  let place :=
    if e.length = 1 then
      "byte 0x" ++ hex 2 e.first.toNat ++ " in position " ++ toString e.position
    else
      "bytes in position " ++ toString e.position ++ "-" ++ toString (e.position + e.length - 1)
  "'utf-8' codec can't decode " ++ place ++ ": " ++ e.fault.reason

def isContinuation (b : UInt8) : Bool :=
  0x80 ≤ b && b < 0xC0

def low6 (b : UInt8) : Nat :=
  b.toNat % 64

/-- Whether `second` may follow `first`: overlong forms, surrogates and code points past the last
one are excluded by the second byte. -/
def mayFollow (first second : UInt8) : Bool :=
  isContinuation second &&
    !(first == 0xE0 && second < 0xA0) && !(first == 0xED && 0xA0 ≤ second) &&
    !(first == 0xF0 && second < 0x90) && !(first == 0xF4 && 0x90 ≤ second)

def decodeFrom (position : Nat) : List UInt8 → Except DecodeError (List Char)
  | [] => .ok []
  | a :: r =>
    let fail (length : Nat) (fault : Fault) : Except DecodeError (List Char) :=
      .error ⟨position, a, length, fault⟩
    let put (n : Nat) (rest : Except DecodeError (List Char)) : Except DecodeError (List Char) :=
      rest.map (Char.ofNat n :: ·)
    if a < 0x80 then put a.toNat (decodeFrom (position + 1) r)
    -- Bytes that continue a character, and those that could only start one in too long a form.
    else if a < 0xC2 ∨ 0xF5 ≤ a then fail 1 .invalidStart
    else match r with
      | [] => fail 1 .unexpectedEnd
      | b :: r =>
        if !mayFollow a b then fail 1 .invalidContinuation
        else if a < 0xE0 then
          put (a.toNat % 32 * 64 + low6 b) (decodeFrom (position + 2) r)
        else match r with
          | [] => fail 2 .unexpectedEnd
          | c :: r =>
            if !isContinuation c then fail 2 .invalidContinuation
            else if a < 0xF0 then
              put ((a.toNat % 16 * 64 + low6 b) * 64 + low6 c) (decodeFrom (position + 3) r)
            else match r with
              | [] => fail 3 .unexpectedEnd
              | d :: r =>
                if !isContinuation d then fail 3 .invalidContinuation
                else
                  put (((a.toNat % 8 * 64 + low6 b) * 64 + low6 c) * 64 + low6 d)
                    (decodeFrom (position + 4) r)

def decode (bytes : List UInt8) : Except DecodeError (List Char) :=
  decodeFrom 0 bytes

def encode (cs : List Char) : List UInt8 :=
  (String.ofList cs).toUTF8.toList

end FlowCanvas.Text.Utf8
