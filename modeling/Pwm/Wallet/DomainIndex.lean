import Pwm.Core.Types
import Pwm.Lib.Text

/-!
# Domain index

The codes of the domains, their labels and the ranges they lie in.
-/

namespace Pwm

inductive DomainCategory
  | regulatory
  | sector
  | reserve
  | witness
  deriving DecidableEq

structure DomainEntry where
  raw : Nat
  label : String
  category : DomainCategory
  deriving DecidableEq

def domainRows (category : DomainCategory) (rows : List (Nat × String)) : List DomainEntry :=
  rows.map fun p => ⟨p.1, p.2, category⟩

def regulatory : List DomainEntry := domainRows .regulatory [
  (0x0300, "AD"), (0x0400, "AE"), (0x0500, "AF"), (0x0600, "AG"), (0x0700, "AL"), (0x0800, "AM"),
  (0x0900, "AO"), (0x0a00, "AR"), (0x0b00, "AT"), (0x0c00, "AU"), (0x0d00, "AZ"), (0x0e00, "BA"),
  (0x0f00, "BB"), (0x1000, "BD"), (0x1100, "BE"), (0x1200, "BF"), (0x1300, "BG"), (0x1400, "BH"),
  (0x1500, "BI"), (0x1600, "BJ"), (0x1700, "BN"), (0x1800, "BO"), (0x1900, "BR"), (0x1a00, "BS"),
  (0x1b00, "BT"), (0x1c00, "BW"), (0x1d00, "BY"), (0x1e00, "BZ"), (0x1f00, "CA"), (0x2000, "CD"),
  (0x2100, "CF"), (0x2200, "CG"), (0x2300, "CH"), (0x2400, "CI"), (0x2500, "CL"), (0x2600, "CM"),
  (0x2700, "CN"), (0x2800, "CO"), (0x2900, "CR"), (0x2a00, "CU"), (0x2b00, "CV"), (0x2c00, "CY"),
  (0x2d00, "CZ"), (0x2e00, "DE"), (0x2f00, "DJ"), (0x3000, "DK"), (0x3100, "DM"), (0x3200, "DO"),
  (0x3300, "DZ"), (0x3400, "EC"), (0x3500, "EE"), (0x3600, "EG"), (0x3700, "ER"), (0x3800, "ES"),
  (0x3900, "ET"), (0x3a00, "FI"), (0x3b00, "FJ"), (0x3c00, "FM"), (0x3d00, "FR"), (0x3e00, "GA"),
  (0x3f00, "GB"), (0x4000, "GD"), (0x4100, "GE"), (0x4200, "GH"), (0x4300, "GM"), (0x4400, "GN"),
  (0x4500, "GQ"), (0x4600, "GR"), (0x4700, "GT"), (0x4800, "GW"), (0x4900, "GY"), (0x4a00, "HN"),
  (0x4b00, "HR"), (0x4c00, "HT"), (0x4d00, "HU"), (0x4e00, "ID"), (0x4f00, "IE"), (0x5000, "IL"),
  (0x5100, "IN"), (0x5200, "IQ"), (0x5300, "IR"), (0x5400, "IS"), (0x5500, "IT"), (0x5600, "JM"),
  (0x5700, "JO"), (0x5800, "JP"), (0x5900, "KE"), (0x5a00, "KG"), (0x5b00, "KH"), (0x5c00, "KI"),
  (0x5d00, "KM"), (0x5e00, "KN"), (0x5f00, "KP"), (0x6000, "KR"), (0x6100, "KW"), (0x6200, "KZ"),
  (0x6300, "LA"), (0x6400, "LB"), (0x6500, "LC"), (0x6600, "LI"), (0x6700, "LK"), (0x6800, "LR"),
  (0x6900, "LS"), (0x6a00, "LT"), (0x6b00, "LU"), (0x6c00, "LV"), (0x6d00, "LY"), (0x6e00, "MA"),
  (0x6f00, "MC"), (0x7000, "MD"), (0x7100, "ME"), (0x7200, "MG"), (0x7300, "MH"), (0x7400, "MK"),
  (0x7500, "ML"), (0x7600, "MM"), (0x7700, "MN"), (0x7800, "MR"), (0x7900, "MT"), (0x7a00, "MU"),
  (0x7b00, "MV"), (0x7c00, "MW"), (0x7d00, "MX"), (0x7e00, "MY"), (0x7f00, "MZ"), (0x8000, "NA"),
  (0x8100, "NE"), (0x8200, "NG"), (0x8300, "NI"), (0x8400, "NL"), (0x8500, "NO"), (0x8600, "NP"),
  (0x8700, "NR"), (0x8800, "NZ"), (0x8900, "OM"), (0x8a00, "PA"), (0x8b00, "PE"), (0x8c00, "PG"),
  (0x8d00, "PH"), (0x8e00, "PK"), (0x8f00, "PL"), (0x9000, "PS"), (0x9100, "PT"), (0x9200, "PW"),
  (0x9300, "PY"), (0x9400, "QA"), (0x9500, "RO"), (0x9600, "RS"), (0x9700, "RU"), (0x9800, "RW"),
  (0x9900, "SA"), (0x9a00, "SB"), (0x9b00, "SC"), (0x9c00, "SD"), (0x9d00, "SE"), (0x9e00, "SG"),
  (0x9f00, "SI"), (0xa000, "SK"), (0xa100, "SL"), (0xa200, "SM"), (0xa300, "SN"), (0xa400, "SO"),
  (0xa500, "SR"), (0xa600, "SS"), (0xa700, "ST"), (0xa800, "SV"), (0xa900, "SY"), (0xaa00, "SZ"),
  (0xab00, "TD"), (0xac00, "TG"), (0xad00, "TH"), (0xae00, "TJ"), (0xaf00, "TL"), (0xb000, "TM"),
  (0xb100, "TN"), (0xb200, "TO"), (0xb300, "TR"), (0xb400, "TT"), (0xb500, "TV"), (0xb600, "TZ"),
  (0xb700, "UA"), (0xb800, "UG"), (0xb900, "US"), (0xba00, "UY"), (0xbb00, "UZ"), (0xbc00, "VA"),
  (0xbd00, "VC"), (0xbe00, "VE"), (0xbf00, "VN"), (0xc000, "VU"), (0xc100, "WS"), (0xc200, "YE"),
  (0xc300, "ZA"), (0xc400, "ZM"), (0xc500, "ZW")]

def sectors : List DomainEntry := domainRows .sector [
  (0xd003, "CDS"), (0xd006, "CST"), (0xd009, "ENG"), (0xd00c, "FIN"), (0xd00f, "HLC"),
  (0xd012, "IND"), (0xd015, "ITC"), (0xd018, "MAT"), (0xd01b, "REA"), (0xd01e, "TLS"),
  (0xd021, "UTL")]

def witness : List DomainEntry := domainRows .witness [
  (0xf003, "Witness Fast"), (0xf006, "Witness Mobile"), (0xf009, "Witness Secure")]

def allEntries : List DomainEntry :=
  regulatory ++ sectors ++ witness

def categoryForRaw (raw : Nat) : Option DomainCategory :=
  if 0x0300 ≤ raw ∧ raw ≤ 0xc5ff then some .regulatory
  else if 0xd000 ≤ raw ∧ raw ≤ 0xdfff then some .sector
  else if 0xe000 ≤ raw ∧ raw ≤ 0xefff then some .reserve
  else if 0xf000 ≤ raw ∧ raw ≤ 0xffff then some .witness
  else none

def lookupByRaw (raw : Nat) : Option DomainEntry :=
  allEntries.find? fun entry => decide (entry.raw = raw)

def lookupRegulatoryByHi (domainHi : Nat) : Option DomainEntry :=
  regulatory.find? fun entry => decide (entry.raw / 256 % 256 = domainHi)

/-- A regulatory domain goes by its first byte when it has no row of its own. -/
def lookupForDisplay (raw : Nat) : Option DomainEntry :=
  (lookupByRaw raw).or (match categoryForRaw raw with
    | some .regulatory => lookupRegulatoryByHi (raw / 256 % 256)
    | _ => none)

/-- The names of countries in use before the labels. -/
def legacyLabels : List (String × Nat) := [
  ("argentina", 0x0a00), ("australia", 0x0c00), ("austria", 0x0b00), ("belgium", 0x1100),
  ("brazil", 0x1900), ("canada", 0x1f00), ("chile", 0x2500), ("china", 0x2700),
  ("colombia", 0x2800), ("cyprus", 0x2c00), ("czech republic", 0x2d00), ("denmark", 0x3000),
  ("egypt", 0x3600), ("estonia", 0x3500), ("finland", 0x3a00), ("france", 0x3d00),
  ("germany", 0x2e00), ("india", 0x5100), ("indonesia", 0x4e00), ("ireland", 0x4f00),
  ("israel", 0x5000), ("italy", 0x5500), ("japan", 0x5800), ("mexico", 0x7d00),
  ("netherlands", 0x8400), ("new zealand", 0x8800), ("nigeria", 0x8200), ("norway", 0x8500),
  ("poland", 0x8f00), ("portugal", 0x9100), ("saudi arabia", 0x9900), ("singapore", 0x9e00),
  ("south africa", 0xc300), ("south korea", 0x6000), ("spain", 0x3800), ("sweden", 0x9d00),
  ("switzerland", 0x2300), ("turkey", 0xb300), ("ukraine", 0xb700),
  ("united arab emirates", 0x0400), ("united kingdom", 0x3f00), ("united states", 0xb900),
  ("vietnam", 0xbf00)]

def lookupLegacyLabelRaw (label : Text) : Option Nat :=
  (legacyLabels.find? fun p =>
    decide (p.1.toList = Text.toAsciiLower (Text.trim label))).map Prod.snd

def lookupByLabel (label : Text) : Option DomainEntry :=
  let normalized := Text.trim label
  (allEntries.find? fun entry =>
      decide (Text.toAsciiLower entry.label.toList = Text.toAsciiLower normalized)).or
    ((lookupLegacyLabelRaw normalized).bind lookupByRaw)

end Pwm
