import Pwm.Wallet.AccountText

/-!
# Recipients and the rows of an address book

Which domains may be named as recipients, and the rows under which a wallet
keeps recipients.
-/

namespace Pwm

/-! ## Recipients -/

/-- Whether an account of this domain may be a recipient; `cliField` is the option it came with. -/
def validateRecipientDomainPolicy (recipient : AccountId) (cliField : Option String) :
    Except String Unit :=
  let domainRaw := (domainOfAccountId recipient).toNat
  let display := String.ofList (formatDomainForDisplay domainRaw).1
  let refuse (long short : String) : Except String Unit :=
    .error (match cliField with
      | some field => "Invalid value for " ++ field ++ ": domain '" ++ display ++ long
      | none => "recipient domain '" ++ display ++ short)
  match categoryForRaw domainRaw with
  | some .reserve =>
      refuse "' is reserve and cannot be used as transaction recipient."
        "' is reserve and cannot be used."
  | some .witness =>
      refuse "' is witness-only and cannot receive funds in regular user flow." "' is witness-only."
  | some .regulatory | some .sector =>
      if (lookupForDisplay domainRaw).isNone then
        refuse "' is not recognized by domain index." "' is not recognized."
      else .ok ()
  | none => refuse "' is not recognized by domain index." "' is not recognized."

def validateRecipientAddressPolicy (recipient : AccountId) : Except String Unit :=
  validateRecipientDomainPolicy recipient none

/-! ## Rows -/

/-- A row: an address, or an address with a label. -/
inductive AddressBookEntry
  | addressOnly (address : Text)
  | withLabel (address : Text) (label : Option Text)
  deriving DecidableEq

namespace AddressBookEntry

def addressStr : AddressBookEntry → Text
  | .addressOnly s => s
  | .withLabel address _ => address

def label : AddressBookEntry → Option Text
  | .addressOnly _ => none
  | .withLabel _ label => label

def accountId (entry : AddressBookEntry) : Except TextError AccountId :=
  parseAcctIdMig (Text.trim entry.addressStr)

end AddressBookEntry

def addressBookContains (entries : List AddressBookEntry) (toId : AccountId) : Bool :=
  entries.any fun e => decide (e.accountId.toOption = some toId)

end Pwm
