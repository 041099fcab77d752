import RouteInventory.Number.Written
import RouteInventory.Text.Case
import RouteInventory.Text.Search

/-!
# Styles

The names that tags give to styles: attributes such as `bold`, a color, a color behind the text and a
link. A style has many names; `usualName` is the same for all of them, and a name that is that of no
style stands for itself.
-/

namespace RouteInventory.Report

open Text Number

/-- The attributes of a style in the order in which its usual name lists them, with their short
names. -/
def attributeNames : List (String × List String) := [
  ("bold", ["b"]), ("dim", ["d"]), ("italic", ["i"]), ("underline", ["u"]), ("blink", []),
  ("blink2", []), ("reverse", ["r"]), ("conceal", ["c"]), ("strike", ["s"]), ("underline2", ["uu"]),
  ("frame", []), ("encircle", []), ("overline", ["o"])]

/-- The attribute that a word names. -/
def attribute? (word : List Char) : Option String :=
  let word := String.ofList word
  (attributeNames.find? fun (name, short) => name = word || short.contains word).map (·.1)

/-- The names of colors, those of greys apart. -/
def colorNames : List String := [
  "default", "black", "red", "green", "yellow", "blue", "magenta", "cyan", "white", "bright_black",
  "bright_red", "bright_green", "bright_yellow", "bright_blue", "bright_magenta", "bright_cyan",
  "bright_white", "navy_blue", "dark_blue", "blue3", "blue1", "dark_green", "deep_sky_blue4",
  "dodger_blue3", "dodger_blue2", "green4", "spring_green4", "turquoise4", "deep_sky_blue3",
  "dodger_blue1", "green3", "spring_green3", "dark_cyan", "light_sea_green", "deep_sky_blue2",
  "deep_sky_blue1", "spring_green2", "cyan3", "dark_turquoise", "turquoise2", "green1",
  "spring_green1", "medium_spring_green", "cyan2", "cyan1", "dark_red", "deep_pink4", "purple4",
  "purple3", "blue_violet", "orange4", "medium_purple4", "slate_blue3", "royal_blue1",
  "chartreuse4", "dark_sea_green4", "pale_turquoise4", "steel_blue", "steel_blue3",
  "cornflower_blue", "chartreuse3", "cadet_blue", "sky_blue3", "steel_blue1", "pale_green3",
  "sea_green3", "aquamarine3", "medium_turquoise", "chartreuse2", "sea_green2", "sea_green1",
  "aquamarine1", "dark_slate_gray2", "dark_magenta", "dark_violet", "purple", "light_pink4",
  "plum4", "medium_purple3", "slate_blue1", "yellow4", "wheat4", "light_slate_grey",
  "light_slate_gray", "medium_purple", "light_slate_blue", "dark_olive_green3", "dark_sea_green",
  "light_sky_blue3", "sky_blue2", "dark_sea_green3", "dark_slate_gray3", "sky_blue1",
  "chartreuse1", "light_green", "pale_green1", "dark_slate_gray1", "red3", "medium_violet_red",
  "magenta3", "dark_orange3", "indian_red", "hot_pink3", "medium_orchid3", "medium_orchid",
  "medium_purple2", "dark_goldenrod", "light_salmon3", "rosy_brown", "medium_purple1", "gold3",
  "dark_khaki", "navajo_white3", "light_steel_blue3", "light_steel_blue", "yellow3",
  "dark_sea_green2", "light_cyan3", "light_sky_blue1", "green_yellow", "dark_olive_green2",
  "dark_sea_green1", "pale_turquoise1", "deep_pink3", "magenta2", "hot_pink2", "orchid",
  "medium_orchid1", "orange3", "light_pink3", "pink3", "plum3", "violet", "light_goldenrod3",
  "tan", "misty_rose3", "thistle3", "plum2", "khaki3", "light_goldenrod2", "light_yellow3",
  "light_steel_blue1", "yellow2", "dark_olive_green1", "honeydew2", "light_cyan1", "red1",
  "deep_pink2", "deep_pink1", "magenta1", "orange_red1", "indian_red1", "hot_pink", "dark_orange",
  "salmon1", "light_coral", "pale_violet_red1", "orchid2", "orchid1", "orange1", "sandy_brown",
  "light_salmon1", "light_pink1", "pink1", "plum1", "gold1", "navajo_white1", "misty_rose1",
  "thistle1", "yellow1", "light_goldenrod1", "khaki1", "wheat1", "cornsilk1"]

/-- The shades of grey that have a name, in hundredths of white. -/
def greyShades : List Nat := [
  0, 3, 7, 11, 15, 19, 23, 27, 30, 35, 37, 39, 42, 46, 50, 53, 54, 58, 62, 63, 66, 69, 70, 74, 78, 82,
  84, 85, 89, 93, 100]

/-- Whether a word is a name of a color. -/
def isColorName (word : String) : Bool :=
  colorNames.contains word ||
    greyShades.any fun shade => word = s!"grey{shade}" || word = s!"gray{shade}"

/-- Why a name is that of no style: a word in it means nothing, or a part of a color is missing. -/
inductive StyleFault
  | unknown
  | missingPart
deriving DecidableEq, Repr

/-- What stands between an opening word and a closing bracket at the end. -/
def argument? (opening : String) (word : List Char) : Option (List Char) := do
  let rest ← after? opening.toList word
  if rest.getLast? = some ')' then some rest.dropLast else none

/-- The greatest part of a color, and the greatest number of one. -/
def maxPart : Nat := 255

def isPart (text : List Char) : Bool :=
  match readWhole 10 text with
  | .ok n => n ≤ maxPart
  | .error _ => false

/-- Whether a word in lower case is a color in numbers: `#` with six hexadecimal digits, its number,
or its three parts. -/
def isNumberedColor (word : List Char) : Except StyleFault Bool :=
  match word, argument? "color(" word, argument? "rgb(" word with
  | '#' :: digits, _, _ => .ok (digits.length = 6 && digits.all fun c => (digit? c).isSome)
  | _, some number, _ =>
    .ok (number.all isDigit && !number.isEmpty && number.length ≤ 3 && isPart number)
  | _, _, some parts =>
    let all := fields ',' parts
    if parts.isEmpty || !(parts.all fun c => isAnyDigit c || c = ',') || all.length != 3 then
      .ok false
    else if all.any (·.isEmpty) then .error .missingPart
    else .ok (all.all isPart)
  | _, _, _ => .ok false

/-- The color that a word names. -/
def readColor (word : List Char) : Except StyleFault String := do
  let name := lower word
  if isColorName (String.ofList name) || (← isNumberedColor name) then return String.ofList name
  else throw .unknown

structure Style where
  /-- The attributes that are spoken of, the latest first, and whether they are on. -/
  attributes : List (String × Bool) := []
  color : Option String := none
  behind : Option String := none
  link : Option String := none
deriving DecidableEq, Repr

namespace Style

/-- The words of a text. -/
def words (text : List Char) : List (List Char) :=
  (fields ' ' (text.map fun c => if isBlank c then ' ' else c)).filter (!·.isEmpty)

/-- The style that words add up to; the latest word on a matter counts. -/
def addWords (s : Style) : List (List Char) → Except StyleFault Style
  | [] => .ok s
  | word :: rest =>
    match String.ofList (lower word), rest with
    | "on", color :: rest => do
      let color ← readColor color
      { s with behind := some color }.addWords rest
    | "not", word :: rest =>
      match attribute? word with
      | some name => { s with attributes := (name, false) :: s.attributes }.addWords rest
      | none => .error .unknown
    | "link", target :: rest => { s with link := some (String.ofList target) }.addWords rest
    | name, rest =>
      match attribute? name.toList with
      | some name => { s with attributes := (name, true) :: s.attributes }.addWords rest
      | none => do
        let color ← readColor word
        { s with color := some color }.addWords rest

/-- The style that a name is that of. -/
def ofName (name : List Char) : Except StyleFault Style :=
  let ws := words name
  if ws = ["none".toList] then .ok {} else addWords {} ws

/-- The usual name of a style: its attributes, its color, the color behind it and its link. -/
def name (s : Style) : String :=
  let attributes := attributeNames.filterMap fun (name, _) =>
    (s.attributes.lookup name).map fun isOn => if isOn then name else s!"not {name}"
  let parts := attributes ++ s.color.toList ++ (s.behind.map (s!"on {·}")).toList ++
    (s.link.map (s!"link {·}")).toList
  if parts.isEmpty then "none" else " ".intercalate parts

/-- The usual name of the style that a name is that of. -/
def usualName (name : List Char) : Except StyleFault String :=
  match ofName name with
  | .ok style => .ok style.name
  | .error .unknown => .ok (String.ofList (lower (strip name)))
  | .error .missingPart => .error .missingPart

end Style

end RouteInventory.Report
