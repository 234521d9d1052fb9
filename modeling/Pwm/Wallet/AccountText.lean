import Pwm.Wallet.DomainIndex
import Pwm.Lib.Bech32

/-!
# Account ids as texts

An account id is written in bech32 behind a version, flags and its domain, or
in the pretty form that names the domain. Readers take these forms and the
older ones, the plain hexadecimal digits among them.
-/

namespace Pwm

/-- What an error says: a text of the code, or one of a library behind a text of the code. -/
inductive TextError
  | own (s : String)
  | lib (front : String)
  deriving DecidableEq

/-- The error behind a text in front. -/
def TextError.behind (front : String) : TextError → TextError
  | .own s => .own (front ++ s)
  | .lib s => .lib (front ++ s)

/-- A byte array of 32 bytes. -/
def bytes32 (bytes : List U8) : Bytes32 :=
  BitVec.ofNat 256 (Digits.ofBeBytes bytes)

theorem bytes32_beBytes (x : Bytes32) : bytes32 (x.beBytes 32) = x :=
  Digits.ofNat_ofBeBytes 32 x

/-! ## Bech32 -/

def bech32dxHrp : Text := "pwm".toList
def bech32dxVersion : U8 := 1#8
def bech32dxPayloadLen : Nat := 38
def legacyHumanAccountPrefix : Text := "PWMv0-".toList

def domRawFromAcct (id : AccountId) : U32 :=
  (domainOfAccountId id).setWidth 32

def encodeBech32dx (version flags : U8) (domainRaw : U32) (id : AccountId) : Text :=
  Bech32.encode bech32dxHrp
    (Bech32.toBase32 ([version, flags] ++ domainRaw.beBytes 4 ++ id.beBytes 32)) .bech32m

def accountIdToBech32dx (id : AccountId) : Text :=
  encodeBech32dx bech32dxVersion 0#8 (domRawFromAcct id) id

structure Bech32DxDecoded where
  version : U8
  flags : U8
  domainRaw : U32
  accountId : AccountId
  deriving DecidableEq

def decodeBech32dx (s : Text) : Except TextError Bech32DxDecoded :=
  match Bech32.decode s with
  | none => .error (.lib "")
  | some (hrp, data, variant) =>
      if hrp ≠ bech32dxHrp then .error (.own "wrong bech32dx hrp")
      else if variant ≠ .bech32m then .error (.own "wrong bech32dx variant")
      else
        match Bech32.fromBase32 data with
        | none => .error (.lib "")
        | some payload =>
            if payload.length ≠ bech32dxPayloadLen then
              .error (.own "wrong bech32dx payload length")
            else if payload.getD 0 0#8 ≠ bech32dxVersion then
              .error (.own "unsupported bech32dx version")
            else
              .ok {
                version := payload.getD 0 0#8
                flags := payload.getD 1 0#8
                domainRaw := BitVec.ofNat 32 (Digits.ofBeBytes ((payload.drop 2).take 4))
                accountId := bytes32 (payload.drop 6) }

def parseBech32dxAccountId (s : Text) : Except TextError AccountId :=
  (decodeBech32dx s).map Bech32DxDecoded.accountId

/-! ## The pretty form -/

/-- Upper-case hexadecimal digits, filled up with zeros to a width. -/
def upperHex (width n : Nat) : Text :=
  let digits := (Nat.toDigits 16 n).map Char.toUpper
  List.replicate (width - digits.length) '0' ++ digits

def formatDomainPascalHex (domainRaw : Nat) : Text :=
  ['$'] ++ upperHex (if domainRaw ≤ 0xffff then 4 else 5) domainRaw

/-- The label of a domain, or its code, and whether it has a label. -/
def formatDomainForDisplay (domainRaw : Nat) : Text × Bool :=
  match lookupForDisplay domainRaw with
  | some entry => (entry.label.toList, true)
  | none => (formatDomainPascalHex domainRaw, false)

def renderAcctIdUi (id : AccountId) : Text :=
  let domainRaw := (domRawFromAcct id).toNat
  let display := formatDomainForDisplay domainRaw
  let withLo :=
    if display.2 = true ∧ categoryForRaw domainRaw = some .regulatory then
      display.1 ++ ['/'] ++ upperHex 2 (domainRaw % 256)
    else display.1
  let hint := if display.2 then withLo else withLo ++ ['!']
  "pwm1-".toList ++ hint ++ "-f".toList ++ upperHex 8 (addressFlags id).toNat ++ "-t".toList ++
    Digits.hexDigits ((id.beBytes 32).drop 6)

def accountIdToHuman (id : AccountId) : Text :=
  renderAcctIdUi id

def parsePrettyDomain (domainPart : Text) : Except TextError Nat :=
  match Text.splitOnce ['/'] domainPart with
  | some (label, loHex) =>
      if loHex.length ≠ 2 ∨ ¬ loHex.all Text.isHexDigit then
        .error (.own "invalid pretty domain lo-byte")
      else
        match lookupByLabel label with
        | none => .error (.own "invalid pretty domain label")
        | some entry => .ok (entry.raw / 256 % 256 * 256 + Text.ofHex loHex)
  | none =>
      match lookupByLabel domainPart with
      | some entry => .ok entry.raw
      | none =>
          let bare := if domainPart.getLast? = some '!' then domainPart.dropLast else domainPart
          match Text.stripPrefix ['$'] bare with
          | none => .error (.own "invalid pretty domain")
          | some hex =>
              if ¬ (hex.length = 4 ∨ hex.length = 5) ∨ ¬ hex.all Text.isHexDigit then
                .error (.own "invalid pretty domain")
              else .ok (Text.ofHex hex)

def parsePrettyAccountId (s : Text) : Except TextError AccountId :=
  match Text.stripPrefix "pwm1-".toList s with
  | none => .error (.own "missing pretty prefix")
  | some rest =>
      match Text.splitOnce "-f".toList rest with
      | none => .error (.own "missing pretty flags separator")
      | some (domainPart, afterDomain) =>
          match Text.splitOnce "-t".toList afterDomain with
          | none => .error (.own "missing pretty tail separator")
          | some (flagsHex, tailPart) =>
              if flagsHex.length ≠ 8 ∨ ¬ flagsHex.all Text.isHexDigit then
                .error (.own "invalid pretty flags")
              else if tailPart.length ≠ 52 ∨ ¬ tailPart.all Text.isHexDigit then
                .error (.own "invalid pretty tail")
              else
                match parsePrettyDomain domainPart with
                | .error e => .error e
                | .ok domainRaw =>
                    if 0xffff < domainRaw then
                      .error (.own "pretty domain does not fit u16")
                    else
                      match Text.hexDecode tailPart with
                      | none => .error (.lib "")
                      | some tail =>
                          .ok (bytes32 ((BitVec.ofNat 16 domainRaw).beBytes 2 ++
                            (BitVec.ofNat 32 (Text.ofHex flagsHex)).beBytes 4 ++ tail))

/-! ## Readers -/

def parseAccountId (input : Text) : Except TextError AccountId :=
  let s := Text.trim input
  match parseBech32dxAccountId s with
  | .ok id => .ok id
  | .error _ =>
      match parsePrettyAccountId s with
      | .ok id => .ok id
      | .error e =>
          if "pwm1-".toList.isPrefixOf s then .error e
          else
            let legacyBech32Part := ((Text.splitOnce ['$'] s).map Prod.fst).getD s
            match parseBech32dxAccountId legacyBech32Part with
            | .ok id => .ok id
            | .error _ =>
                let hexPart :=
                  (Text.stripPrefix legacyHumanAccountPrefix legacyBech32Part).getD legacyBech32Part
                match Text.hexDecode hexPart with
                | none => .error (.lib "")
                | some bytes =>
                    if bytes.length ≠ 32 then .error (.own "need 32 bytes hex account id")
                    else .ok (bytes32 bytes)

def prettyDomainPart (s : Text) : Option Text :=
  (Text.stripPrefix "pwm1-".toList s).bind fun rest =>
    (Text.splitOnce "-f".toList rest).map Prod.fst

/-- A label of a regulatory domain without its second byte does not say which domain is meant. -/
def rejectAmbigDom (domainPart : Text) (runtimeUserInput : Bool) : Except TextError Unit :=
  if '/' ∈ domainPart then .ok ()
  else
    match lookupByLabel domainPart with
    | none => .ok ()
    | some entry =>
        if categoryForRaw entry.raw = some .regulatory then
          .error (.own ("ambiguous legacy pretty domain '" ++ String.ofList domainPart ++
            (if runtimeUserInput then
              "': missing '/LO' suffix; use strict pretty 'pwm1-LABEL/XX-f...-t...' or canonical " ++
                "bech32dx 'pwm1...'"
            else
              "': missing '/LO' suffix; use canonical/bech32dx, account_id_hex, or strict pretty " ++
                "LABEL/LO")))
        else .ok ()

/-- Read an account id after the check for an ambiguous domain. -/
def parseAcctIdChecked (runtimeUserInput : Bool) (input : Text) : Except TextError AccountId := do
  match prettyDomainPart (Text.trim input) with
  | none => pure ()
  | some domainPart => rejectAmbigDom domainPart runtimeUserInput
  parseAccountId (Text.trim input)

def parseAcctIdUi : Text → Except TextError AccountId :=
  parseAcctIdChecked true

def parseAcctIdMig : Text → Except TextError AccountId :=
  parseAcctIdChecked false

end Pwm
