import Helios.Text.Property
import Helios.Text.Script

/-!
# Graphemes, words and sentences

The classes by which a text is cut into graphemes, words and sentences: the values of the properties
`Grapheme_Cluster_Break`, `Word_Break` and `Sentence_Break`. Each class is given by the rule that defines
it, up to tables of single code points.
-/

namespace Helios.Text

open Category (anyOf)

/-! ## Graphemes -/

/-- The syllables of Hangul. -/
def hangulSyllables : Ranges := Ranges.ofText "AC00-D7A3"

/-- The syllables of Hangul without a final consonant: every 28th. -/
def openSyllables : Ranges := Ranges.ofPoints ((List.range 399).map fun k => 0xAC00 + 28 * k)

/-- What stands before a grapheme and belongs to it. -/
def prepended : Ranges := Ranges.ofText
  "600-605 6DD 70F 890-891 8E2 D4E 110BD 110CD 111C2-111C3 113D1 1193F 11941 11A3A 11A84-11A89
  11D46 11F02"

/-- Marks of their own width that do not join the grapheme before them. -/
def apartMarks : Ranges := Ranges.ofText
  "102B-102C 1038 1062-1064 1067-106D 1083 1087-108C 108F 109A-109C 1A61 1A63-1A64 AA7B AA7D
  11720-11721"

/-- Separators, controls and formats that end a grapheme. -/
def graphemeControls : Ranges :=
  ((anyOf [.zl, .zp, .cc, .cf]).union (defaultIgnorable.diff Category.assigned)).diff
    (Ranges.unions [Ranges.ofText "A D", graphemeExtend, joinControls, prepended])

/-- **The classes of graphemes.** -/
def graphemeBreaks : List Property :=
  [.ofTable ["cr"] "D",
   .ofTable ["lf"] "A",
   ⟨["cn", "control"], graphemeControls⟩,
   ⟨["ex", "extend"], graphemeExtend.union emojiModifiers⟩,
   .ofTable ["zwj"] "200D",
   ⟨["ri", "regionalindicator"], regionalIndicators⟩,
   ⟨["pp", "prepend"], prepended⟩,
   ⟨["sm", "spacingmark"],
    (Category.mc.points.diff (graphemeExtend.union apartMarks)).union (Ranges.ofText "E33 EB3")⟩,
   .ofTable ["l"] "1100-115F A960-A97C",
   .ofTable ["v"] "1160-11A7 D7B0-D7C6 16D63 16D67-16D6A",
   .ofTable ["t"] "11A8-11FF D7CB-D7FB",
   ⟨["lv"], openSyllables⟩,
   ⟨["lvt"], hangulSyllables.diff openSyllables⟩]

/-! ## Words -/

/-- Signs that count as digits. -/
def numberSigns : Ranges := Ranges.ofText "600-605 66B 6DD 890-891 8E2 19DA 110BD 110CD"

/-- Digits and what counts as one. -/
def wordNumbers : Ranges := Category.nd.points.union numberSigns

/-- Format characters that neither join characters nor stand for more. -/
def plainFormats : Ranges :=
  Category.cf.points.diff (Ranges.unions [graphemeExtend, joinControls, numberSigns])

/-- The letters of Hebrew. -/
def hebrewLetters : Ranges := Category.lo.points.inter Script.hebrew

/-- The characters of Katakana, and signs that are used with them. -/
def katakana : Ranges := Ranges.ofText
  "3031-3035 309B-309C 30A0-30FA 30FC-30FF 31F0-31FF 32D0-32FE 3300-3357 FF66-FF9D 1AFF0-1AFF3
  1AFF5-1AFFB 1AFFD-1AFFE 1B000 1B120-1B122 1B155 1B164-1B167"

/-- Alphabetic code points of scripts that write words without blanks. -/
def unspacedLetters : Ranges := Ranges.ofText
  "E01-E30 E32-E33 E40-E46 E81-E82 E84 E86-E8A E8C-EA3 EA5 EA7-EB0 EB2-EB3 EBD EC0-EC4 EC6
  EDC-EDF 1000-102A 103F 1050-1055 105A-105D 1061 1065-1066 106E-1070 1075-1081 108E 1780-17B3
  17D7 17DC 1950-196D 1970-1974 1980-19AB 19B0-19C9 1A20-1A54 1AA7 A9E0-A9E4 A9E6-A9EF
  A9FA-A9FE AA60-AA76 AA7A AA7E-AAAF AAB1 AAB5-AAB6 AAB9-AABD AAC0 AAC2 AADB-AADD 11700-1171A
  11740-11746"

/-- Signs that count as letters in a word. -/
def letterSigns : Ranges := Ranges.ofText
  "B8 2C2-2C5 2D2-2D7 2DE-2DF 2E5-2EB 2ED 2EF-2FF 55A-55C 55E 58A 5F3 70F A708-A716 A720-A721
  A789-A78A AB5B"

/-- The letters that words are made of. -/
def wordLetters : Ranges :=
  letterSigns.union (alphabetic.diff (Ranges.unions
    [ideographic, Script.hiragana, hebrewLetters, katakana, unspacedLetters, graphemeExtend,
     Category.mc.points]))

/-- **The classes of words.** -/
def wordBreaks : List Property :=
  [.ofTable ["cr"] "D",
   .ofTable ["lf"] "A",
   .ofTable ["nl", "newline"] "B-C 85 2028-2029",
   ⟨["extend"], Ranges.unions [graphemeExtend, Category.mc.points, emojiModifiers]⟩,
   .ofTable ["zwj"] "200D",
   ⟨["fo", "format"], plainFormats.diff (Ranges.ofText "70F 200B")⟩,
   ⟨["ri", "regionalindicator"], regionalIndicators⟩,
   ⟨["ka", "katakana"], katakana⟩,
   ⟨["hl", "hebrewletter"], hebrewLetters⟩,
   ⟨["le", "aletter"], wordLetters⟩,
   .ofTable ["sq", "singlequote"] "27",
   .ofTable ["dq", "doublequote"] "22",
   .ofTable ["mb", "midnumlet"] "2E 2018-2019 2024 FE52 FF07 FF0E",
   .ofTable ["ml", "midletter"] "3A B7 387 55F 5F4 2027 FE13 FE55 FF1A",
   .ofTable ["mn", "midnum"] "2C 3B 37E 589 60C-60D 66C 7F8 2044 FE50 FE54 FF0C FF1B",
   ⟨["nu", "numeric"], wordNumbers⟩,
   .ofTable ["ex", "extendnumlet"] "5F 202F 203F-2040 2054 FE33-FE34 FE4D-FE4F FF3F",
   .ofTable ["wsegspace"] "20 1680 2000-2006 2008-200A 205F 3000"]

/-! ## Sentences -/

/-- What goes on a sentence: marks of either kind and the joiner. -/
def sentenceExtend : Ranges :=
  Ranges.unions [graphemeExtend, Category.mc.points, Ranges.ofText "200D"]

/-- Lower case to a sentence. The small letters of Georgian are not. -/
def sentenceLower : Ranges := lowercase.diff (sentenceExtend.union (Ranges.ofText "10D0-10FA 10FD-10FF"))

/-- Upper case to a sentence. The capital letters of Georgian are not. -/
def sentenceUpper : Ranges :=
  (uppercase.union Category.lt.points).diff (Ranges.ofText "1C90-1CBA 1CBD-1CBF")

/-- Full stops, which may also stand inside a sentence. -/
def fullStops : Ranges := Ranges.ofText "2E 2024 FE52 FF0E"

/-- Ornaments that are used like brackets. -/
def ornamentalBrackets : Ranges := Ranges.ofText "275B-2760 2E00-2E01 2E06-2E08 2E0B 1F676-1F678"

/-- Brackets and quotation marks but the wide ones. -/
def closings : Ranges :=
  (Ranges.unions [anyOf [.ps, .pe, .pi, .pf], ornamentalBrackets, quotationMarks]).diff
    (Ranges.ofText "FF02 FF07")

/-- **The classes of sentences.** -/
def sentenceBreaks : List Property :=
  [.ofTable ["cr"] "D",
   .ofTable ["lf"] "A",
   ⟨["ex", "extend"], sentenceExtend⟩,
   .ofTable ["se", "sep"] "85 2028-2029",
   ⟨["fo", "format"], plainFormats⟩,
   .ofTable ["sp"] "9 B-C 20 A0 1680 2000-200A 202F 205F 3000",
   ⟨["lo", "lower"], sentenceLower⟩,
   ⟨["up", "upper"], sentenceUpper⟩,
   ⟨["le", "oletter"],
    (alphabetic.union (Ranges.ofText "5F3")).diff
      (Ranges.unions [sentenceLower, sentenceUpper, sentenceExtend])⟩,
   ⟨["nu", "numeric"], wordNumbers.union (Ranges.ofText "66C")⟩,
   ⟨["at", "aterm"], fullStops⟩,
   .ofTable ["sc", "scontinue"]
    "2C-2D 3A-3B 37E 55D 60C-60D 7F8 1802 1808 2013-2014 3001 FE10-FE11 FE13-FE14 FE31-FE32
    FE50-FE51 FE54-FE55 FE58 FE63 FF0C-FF0D FF1A-FF1B FF64",
   ⟨["st", "sterm"], sentenceTerminals.diff fullStops⟩,
   ⟨["cl", "close"], closings⟩]

end Helios.Text
