import Phrasebook.Language.Tag
import Phrasebook.Plural.Rules

/-! Which plural rules a language tag selects. -/

namespace Phrasebook.Plural

def ruleGroups : List (List String × Rules) :=
  [(["am", "as", "bn", "doi", "fa", "gu", "hi", "kn", "kok", "pcm", "tg", "vi", "zu"],
      oneForZero),
   (["hy"], oneBelowTwo),
   (["fr", "pt"], oneBelowTwoManyMillions),
   (["he"], hebrew),
   (["cs", "sk"], czech),
   (["ro"], romanian),
   (["pl"], polish),
   (["ca", "es", "gl", "it", "lld", "scn", "vec"], oneWholeManyMillions),
   (["br"], breton),
   (["lt"], lithuanian),
   (["be"], belarusian),
   (["si"], sinhala),
   (["ak", "bho", "csw", "nso", "pa", "ti"], oneWholeOrZero),
   (["af", "ast", "az", "bg", "brx", "chr", "ckb", "de", "ee", "el", "en", "eo", "et", "eu",
      "fi", "fo", "fy", "ha", "hu", "ia", "ie", "ka", "kk", "ks", "ku", "ky", "lb", "lij", "ml",
      "mn", "mr", "nb", "ne", "nl", "nn", "no", "om", "or", "ps", "rm", "sc", "sd", "so", "sq",
      "st", "sv", "sw", "syr", "ta", "te", "tk", "tn", "tr", "ug", "ur", "uz", "xh"], oneWhole),
   (["da"], danish),
   (["gd"], gaelic),
   (["sat"], oneTwoWhole),
   (["mt"], maltese),
   (["ga"], irish),
   (["is"], icelandic),
   (["mk"], macedonian),
   (["bs", "hr", "sr"], serbian),
   (["ru", "uk"], russian),
   (["dsb", "hsb"], sorbian),
   (["sl"], slovenian),
   (["ceb", "fil"], filipino),
   (["lv", "prg"], latvian),
   (["blo", "cv", "ksh"], zeroOneWhole),
   (["ar"], arabic),
   (["cy"], welsh)]

def rulesOfLanguage? (language : String) : Option Rules :=
  (ruleGroups.find? fun group => group.1.contains language).map Prod.snd

def scriptGroups : List (List String × String) :=
  [(["ar", "ckb", "fa", "ks", "ps", "sd", "ug", "ur"], "arab"),
   (["be", "bg", "cv", "kk", "ky", "mk", "mn", "ru", "sr", "tg", "uk"], "cyrl"),
   (["bho", "brx", "doi", "hi", "kok", "mr", "ne"], "deva"),
   (["as", "bn"], "beng"),
   (["am", "ti"], "ethi"),
   (["hy"], "armn"),
   (["ka"], "geor"),
   (["el"], "grek"),
   (["gu"], "gujr"),
   (["pa"], "guru"),
   (["he"], "hebr"),
   (["kn"], "knda"),
   (["ml"], "mlym"),
   (["or"], "orya"),
   (["si"], "sinh"),
   (["syr"], "syrc"),
   (["ta"], "taml"),
   (["te"], "telu"),
   (["chr"], "cher"),
   (["csw"], "cans"),
   (["sat"], "olck")]

def usualScript (language : String) : String :=
  ((scriptGroups.find? fun group => group.1.contains language).map Prod.snd).getD "latn"

/-- Whether naming a script leaves the rules of a language as they are. -/
def admitsScript (language script : String) : Bool :=
  if language = "nb" then false
  else script = usualScript language || language = "kok" && script = "latn"

def foreignRegions (language : String) : List String :=
  match language with
  | "az" => ["iq", "ir", "ru"]
  | "ha" => ["cm", "sd"]
  | "kk" => ["af", "cn", "ir", "mn"]
  | "ku" => ["am", "az", "ge", "iq", "ir", "lb", "tm"]
  | "ky" => ["cn", "tr"]
  | "mn" => ["cn"]
  | "pa" => ["pk"]
  | "sd" => ["in"]
  | "sr" => ["me", "ro", "tr"]
  | "tg" => ["pk"]
  | "ug" => ["kz", "mn"]
  | "uz" => ["af", "cn"]
  | _ => []

def europeanPortuguese : List String :=
  ["ao", "ch", "cv", "fr", "gq", "gw", "lu", "mo", "mz", "pt", "st", "tl"]

def rulesOfTag? (tag : Tag) : Option Rules :=
  let ownRules :=
    if tag.language = "pt" ∧ tag.region?.any europeanPortuguese.contains then
      some oneWholeManyMillions
    else rulesOfLanguage? tag.language
  match tag.script? with
  | some script =>
      if tag.language = "hi" ∧ script = "latn" then rulesOfLanguage? "en"
      else if admitsScript tag.language script then ownRules
      else none
  | none =>
      if tag.region?.any (foreignRegions tag.language).contains then none else ownRules

def rulesOf? (code : String) : Option Rules :=
  (Tag.read? (hyphenated code.toList)).bind rulesOfTag?

/-- Without rules, and for numbers that are not finite, every number is `other`. -/
def category (code : String) (x : Float) : Category :=
  match rulesOf? code, Operands.ofFloat? x with
  | some rules, some operands => rules.category operands
  | _, _ => .other

end Phrasebook.Plural
