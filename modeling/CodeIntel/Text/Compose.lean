/-!
# Letters with marks

A letter and the mark behind it are one character wherever there is one for both
of them. This covers the small letters of the Latin, Greek, Cyrillic and Arabic
alphabets, kana, mathematical signs that are struck through, and the syllables
of Hangul.
-/

namespace CodeIntel
namespace Text

/-- For each mark the letters that it joins, each followed by what they become
together. -/
def joinedByMark : List (Char × String) :=
  [('\u0300', "aàeèiìoòuùüǜnǹеѐиѝēḕōṑwẁâầăằêềôồơờưừyỳἀἂἁἃἐἒἑἓἠἢἡἣἰἲἱἳὀὂὁὃὐὒὑὓὠὢὡὣαὰεὲηὴιὶοὸυὺωὼ" ++
      "᾿῍ϊῒ῾῝ϋῢ¨῭"),
    ('\u0301', "aáeéiíoóuúyýcćlĺnńrŕsśzźüǘgǵåǻæǽøǿ¨΅ϊΐαάεέηήιίϋΰοόυύωώϒϓгѓкќçḉēḗïḯkḱmḿõṍōṓpṕũṹwẃ" ++
      "âấăắêếôốơớưứἀἄἁἅἐἔἑἕἠἤἡἥἰἴἱἵὀὄὁὅὐὔὑὕὠὤὡὥ᾿῎῾῞"),
    ('\u0302', "aâeêiîoôuûcĉgĝhĥjĵsŝwŵyŷzẑạậẹệọộ"),
    ('\u0303', "aãnñoõiĩuũvṽâẫăẵeẽêễôỗơỡưữyỹ"),
    ('\u0304', "aāeēiīoōuūüǖäǟȧǡæǣǫǭöȫõȭȯȱyȳиӣуӯgḡḷḹṛṝαᾱιῑυῡ"),
    ('\u0306', "aăeĕgğiĭoŏuŭийуўжӂаӑеӗȩḝạặαᾰιῐυῠ"),
    ('\u0307', "cċeėgġzżaȧoȯbḃdḋfḟhḣmṁnṅpṗrṙsṡśṥšṧṣṩtṫwẇxẋyẏſẛ"),
    ('\u0308', "aäeëiïoöuüyÿιϊυϋϒϔеёіїаӓәӛжӝзӟиӥоӧөӫэӭуӱчӵыӹhḧõṏūṻwẅxẍtẗ"),
    ('\u0309', "aảâẩăẳeẻêểiỉoỏôổơởuủưửyỷ"),
    ('\u030a', "aåuůwẘyẙ"),
    ('\u030b', "oőuűуӳ"),
    ('\u030c', "cčdďeělľnňrřsštťzžaǎiǐoǒuǔüǚgǧkǩʒǯjǰhȟ"),
    ('\u030f', "aȁeȅiȉoȍrȑuȕѵѷ"),
    ('\u0311', "aȃeȇiȋoȏrȓuȗ"),
    ('\u0313', "αἀεἐηἠιἰοὀυὐωὠρῤ"),
    ('\u0314', "αἁεἑηἡιἱοὁυὑωὡρῥ"),
    ('\u031b', "oơuư"),
    ('\u0323', "bḅdḍhḥkḳlḷmṃnṇrṛsṣtṭvṿwẉzẓaạeẹiịoọơợuụưựyỵ"),
    ('\u0324', "uṳ"),
    ('\u0325', "aḁ"),
    ('\u0326', "sștț"),
    ('\u0327', "cçgģkķlļnņrŗsştţeȩdḑhḩ"),
    ('\u0328', "aąeęiįuųoǫ"),
    ('\u032d', "dḓeḙlḽnṋtṱuṷ"),
    ('\u032e', "hḫ"),
    ('\u0330', "eḛiḭuṵ"),
    ('\u0331', "bḇdḏkḵlḻnṉrṟtṯzẕhẖ"),
    ('\u0338', "←↚→↛↔↮⇐⇍⇔⇎⇒⇏∃∄∈∉∋∌∣∤∥∦∼≁≃≄≅≇≈≉=≠≡≢≍≭<≮>≯≤≰≥≱≲≴≳≵≶≸≷≹≺⊀≻⊁⊂⊄⊃⊅⊆⊈⊇⊉⊢⊬⊨⊭⊩⊮⊫⊯≼⋠≽⋡⊑⋢⊒⋣" ++
      "⊲⋪⊳⋫⊴⋬⊵⋭"),
    ('\u0342', "ἀἆἁἇἠἦἡἧἰἶἱἷὐὖὑὗὠὦὡὧαᾶ¨῁ηῆ᾿῏ιῖϊῗ῾῟υῦϋῧωῶ"),
    ('\u0653', "اآ"),
    ('\u0654', "اأوؤيئەۀہۂےۓ"),
    ('\u0655', "اإ"),
    ('\u3099', "かがきぎくぐけげこごさざしじすずせぜそぞただちぢつづてでとどはばひびふぶへべほぼうゔゝゞカガキギクグケゲコゴサザシジスズセゼソゾタダチヂツヅテデトドハバヒビフブ" ++
      "ヘベホボウヴワヷヰヸヱヹヲヺヽヾ"),
    ('\u309a', "はぱひぴふぷへぺほぽハパヒピフプヘペホポ")]

def partner? (a : Char) : List Char → Option Char
  | b :: c :: rest => if b = a then some c else partner? a rest
  | _ => none

def withMark? (letter mark : Char) : Option Char :=
  (joinedByMark.find? fun e => e.1 = mark).bind fun e =>
    partner? letter e.2.toList

/-- The syllable of two parts: a consonant and a vowel, or a syllable that ends
in its vowel and a consonant. -/
def syllable? (a b : Char) : Option Char :=
  let m := a.toNat
  let n := b.toNat
  if 0x1100 ≤ m ∧ m < 0x1113 ∧ 0x1161 ≤ n ∧ n < 0x1176 then
    some (Char.ofNat (0xAC00 + ((m - 0x1100) * 21 + (n - 0x1161)) * 28))
  else if 0xAC00 ≤ m ∧ m < 0xD7A4 ∧ (m - 0xAC00) % 28 = 0 ∧ 0x11A8 ≤ n ∧
    n < 0x11C3 then
    some (Char.ofNat (m + (n - 0x11A7)))
  else none

def joined? (a b : Char) : Option Char :=
  (syllable? a b).orElse fun _ => withMark? a b

/-- Joins `a` with as many of the marks behind it as it can take. -/
def composeFrom (a : Char) : List Char → List Char
  | [] => [a]
  | b :: rest =>
    match joined? a b with
    | some c => composeFrom c rest
    | none => a :: composeFrom b rest

def compose : List Char → List Char
  | [] => []
  | a :: rest => composeFrom a rest

end Text
end CodeIntel
