/-!
# Decoding stored channel values to light

Stored channels follow the sRGB curve; light adds up only after the curve is undone.  The
table holds the decoded value of each of the 256 channel values to nine decimals: `v / 12.92`
for `v ≤ 0.04045` and `((v + 0.055) / 1.055) ^ 2.4` above, with `v` the channel over 255.
-/

namespace PaletteBitmap
namespace Color

def lightTable : Array Nat :=
  #[
    0, 303527, 607054, 910581, 1214108, 1517635, 1821162, 2124689,
    2428216, 2731743, 3035270, 3346536, 3676507, 4024717, 4391442, 4776953,
    5181517, 5605392, 6048833, 6512091, 6995410, 7499032, 8023193, 8568126,
    9134059, 9721218, 10329823, 10960094, 11612245, 12286488, 12983033, 13702083,
    14443844, 15208514, 15996294, 16807375, 17641954, 18500220, 19382361, 20288562,
    21219010, 22173885, 23153367, 24157632, 25186859, 26241222, 27320892, 28426040,
    29556835, 30713445, 31896032, 33104766, 34339808, 35601314, 36889449, 38204372,
    39546236, 40915199, 42311411, 43735031, 45186203, 46665087, 48171826, 49706567,
    51269457, 52860647, 54480277, 56128491, 57805430, 59511237, 61246052, 63010015,
    64803265, 66625938, 68478167, 70360094, 72271854, 74213572, 76185383, 78187421,
    80219820, 82282707, 84376208, 86500458, 88655584, 90841711, 93058966, 95307469,
    97587347, 99898726, 102241732, 104616486, 107023105, 109461710, 111932427, 114435375,
    116970666, 119538426, 122138776, 124771819, 127437681, 130136475, 132868320, 135633335,
    138431609, 141263291, 144128472, 147027269, 149959788, 152926147, 155926466, 158960834,
    162029371, 165132195, 168269396, 171441108, 174647406, 177888423, 181164250, 184474990,
    187820777, 191201687, 194617838, 198069319, 201556250, 205078736, 208636865, 212230757,
    215860501, 219526201, 223227963, 226965874, 230740055, 234550580, 238397568, 242281124,
    246201321, 250158280, 254152089, 258182853, 262250662, 266355604, 270497799, 274677306,
    278894275, 283148736, 287440836, 291770637, 296138257, 300543785, 304987311, 309468925,
    313988715, 318546772, 323143214, 327778101, 332451522, 337163627, 341914415, 346704066,
    351532608, 356400132, 361306787, 366252601, 371237695, 376262128, 381326020, 386429429,
    391572475, 396755219, 401977777, 407240212, 412542611, 417885065, 423267663, 428690493,
    434153646, 439657182, 445201188, 450785786, 456411034, 462076992, 467783809, 473531485,
    479320168, 485149950, 491020858, 496932983, 502886474, 508881330, 514917672, 520995557,
    527115107, 533276379, 539479494, 545724452, 552011430, 558340371, 564711511, 571124852,
    577580452, 584078431, 590618849, 597201765, 603827357, 610495567, 617206573, 623960376,
    630757153, 637596846, 644479692, 651405632, 658374846, 665387273, 672443151, 679542482,
    686685324, 693871737, 701101899, 708375752, 715693474, 723055124, 730460763, 737910390,
    745404184, 752942204, 760524511, 768151164, 775822222, 783537805, 791297913, 799102724,
    806952238, 814846575, 822785735, 830769897, 838799000, 846873224, 854992628, 863157213,
    871367097, 879622400, 887923121, 896269381, 904661179, 913098633, 921581864, 930110872,
    938685715, 947306514, 955973327, 964686275, 973445296, 982250571, 991102099, 1000000000  ]

def lightFloats : Array Float32 :=
  lightTable.map fun n => Float32.ofScientific n true 9

/-- The light of a stored channel value. -/
def light (v : UInt8) : Float32 :=
  lightFloats.getD v.toNat 0

theorem size_lightTable : lightTable.size = 256 := by decide +kernel

end Color
end PaletteBitmap
