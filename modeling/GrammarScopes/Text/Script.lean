import GrammarScopes.Text.Ranges

/-!
Scripts of characters, for those scripts that patterns name.  As in other range tables, a table
lists the points at which membership changes, first from outside to inside.
-/

namespace GrammarScopes.Text

inductive Script
  | arabic
  | armenian
  | cyrillic
  | devanagari
  | georgian
  | greek
  | han
  | hangul
  | hebrew
  | hiragana
  | katakana
  | latin
  | thai
  deriving DecidableEq, Repr

def arabicChanges : Array Nat := #[
  1536, 1541, 1542, 1548, 1549, 1563, 1564, 1567, 1568, 1600, 1601, 1611, 1622, 1648, 1649, 1757,
  1758, 1792, 1872, 1920, 2160, 2191, 2192, 2194, 2200, 2274, 2275, 2304, 64336, 64451, 64467,
  64830, 64832, 64912, 64914, 64968, 64975, 64976, 65008, 65024, 65136, 65141, 65142, 65277,
  69216, 69247, 126464, 126468, 126469, 126496, 126497, 126499, 126500, 126501, 126503, 126504,
  126505, 126515, 126516, 126520, 126521, 126522, 126523, 126524, 126530, 126531, 126535, 126536,
  126537, 126538, 126539, 126540, 126541, 126544, 126545, 126547, 126548, 126549, 126551, 126552,
  126553, 126554, 126555, 126556, 126557, 126558, 126559, 126560, 126561, 126563, 126564, 126565,
  126567, 126571, 126572, 126579, 126580, 126584, 126585, 126589, 126590, 126591, 126592, 126602,
  126603, 126620, 126625, 126628, 126629, 126634, 126635, 126652, 126704, 126706]

def cyrillicChanges : Array Nat := #[
  1024, 1157, 1159, 1328, 7296, 7305, 7467, 7468, 7544, 7545, 11744, 11776, 42560, 42656, 65070,
  65072]

def georgianChanges : Array Nat := #[
  4256, 4294, 4295, 4296, 4301, 4302, 4304, 4347, 4348, 4352, 7312, 7355, 7357, 7360, 11520,
  11558, 11559, 11560, 11565, 11566]

def greekChanges : Array Nat := #[
  880, 884, 885, 888, 890, 894, 895, 896, 900, 901, 902, 903, 904, 907, 908, 909, 910, 930, 931,
  994, 1008, 1024, 7462, 7467, 7517, 7522, 7526, 7531, 7615, 7616, 7936, 7958, 7960, 7966, 7968,
  8006, 8008, 8014, 8016, 8024, 8025, 8026, 8027, 8028, 8029, 8030, 8031, 8062, 8064, 8117, 8118,
  8133, 8134, 8148, 8150, 8156, 8157, 8176, 8178, 8181, 8182, 8191, 8486, 8487, 43877, 43878,
  65856, 65935, 65952, 65953, 119296, 119366]

def hanChanges : Array Nat := #[
  11904, 11930, 11931, 12020, 12032, 12246, 12293, 12294, 12295, 12296, 12321, 12330, 12344,
  12348, 13312, 19904, 19968, 40960, 63744, 64110, 64112, 64218, 94178, 94180, 94192, 94194,
  131072, 173792, 173824, 177977, 177984, 178206, 178208, 183970, 183984, 191457, 194560, 195102,
  196608, 201547]

def hangulChanges : Array Nat := #[
  4352, 4608, 12334, 12336, 12593, 12687, 12800, 12831, 12896, 12927, 43360, 43389, 44032, 55204,
  55216, 55239, 55243, 55292, 65440, 65471, 65474, 65480, 65482, 65488, 65490, 65496, 65498, 65501]

def hebrewChanges : Array Nat := #[
  1425, 1480, 1488, 1515, 1519, 1525, 64285, 64311, 64312, 64317, 64318, 64319, 64320, 64322,
  64323, 64325, 64326, 64336]

def katakanaChanges : Array Nat := #[
  12449, 12539, 12541, 12544, 12784, 12800, 13008, 13055, 13056, 13144, 65382, 65392, 65393,
  65438, 110576, 110580, 110581, 110588, 110589, 110591, 110592, 110593, 110880, 110883, 110948,
  110952]

def latinChanges : Array Nat := #[
  65, 91, 97, 123, 170, 171, 186, 187, 192, 215, 216, 247, 248, 697, 736, 741, 7424, 7462, 7468,
  7517, 7522, 7526, 7531, 7544, 7545, 7615, 7680, 7936, 8305, 8306, 8319, 8320, 8336, 8349, 8490,
  8492, 8498, 8499, 8526, 8527, 8544, 8585, 11360, 11392, 42786, 42888, 42891, 42955, 42960,
  42962, 42963, 42964, 42965, 42970, 42994, 43008, 43824, 43867, 43868, 43877, 43878, 43882,
  64256, 64263, 65313, 65339, 65345, 65371, 67456, 67462, 67463, 67505, 67506, 67515, 122624,
  122655]

namespace Script

/-- The points at which membership in a script changes. -/
def changes : Script → Array Nat
  | arabic => arabicChanges
  | armenian => #[1329, 1367, 1369, 1419, 1421, 1424, 64275, 64280]
  | cyrillic => cyrillicChanges
  | devanagari => #[2304, 2385, 2389, 2404, 2406, 2432, 43232, 43264]
  | georgian => georgianChanges
  | greek => greekChanges
  | han => hanChanges
  | hangul => hangulChanges
  | hebrew => hebrewChanges
  | hiragana => #[12353, 12439, 12445, 12448, 110593, 110880, 110928, 110931, 127488, 127489]
  | katakana => katakanaChanges
  | latin => latinChanges
  | thai => #[3585, 3643, 3648, 3676]

def contains (s : Script) (c : Char) : Bool := inRanges s.changes c.toNat

end Script

def emojiChanges : Array Nat := #[
  35, 36, 42, 43, 48, 58, 169, 170, 174, 175, 8252, 8253, 8265, 8266, 8482, 8483, 8505, 8506,
  8596, 8602, 8617, 8619, 8986, 8988, 9000, 9001, 9167, 9168, 9193, 9204, 9208, 9211, 9410, 9411,
  9642, 9644, 9654, 9655, 9664, 9665, 9723, 9727, 9728, 9733, 9742, 9743, 9745, 9746, 9748, 9750,
  9752, 9753, 9757, 9758, 9760, 9761, 9762, 9764, 9766, 9767, 9770, 9771, 9774, 9776, 9784, 9787,
  9792, 9793, 9794, 9795, 9800, 9812, 9823, 9825, 9827, 9828, 9829, 9831, 9832, 9833, 9851, 9852,
  9854, 9856, 9874, 9880, 9881, 9882, 9883, 9885, 9888, 9890, 9895, 9896, 9898, 9900, 9904, 9906,
  9917, 9919, 9924, 9926, 9928, 9929, 9934, 9936, 9937, 9938, 9939, 9941, 9961, 9963, 9968, 9974,
  9975, 9979, 9981, 9982, 9986, 9987, 9989, 9990, 9992, 9998, 9999, 10000, 10002, 10003, 10004,
  10005, 10006, 10007, 10013, 10014, 10017, 10018, 10024, 10025, 10035, 10037, 10052, 10053,
  10055, 10056, 10060, 10061, 10062, 10063, 10067, 10070, 10071, 10072, 10083, 10085, 10133,
  10136, 10145, 10146, 10160, 10161, 10175, 10176, 10548, 10550, 11013, 11016, 11035, 11037,
  11088, 11089, 11093, 11094, 12336, 12337, 12349, 12350, 12951, 12952, 12953, 12954, 126980,
  126981, 127183, 127184, 127344, 127346, 127358, 127360, 127374, 127375, 127377, 127387, 127462,
  127488, 127489, 127491, 127514, 127515, 127535, 127536, 127538, 127547, 127568, 127570, 127744,
  127778, 127780, 127892, 127894, 127896, 127897, 127900, 127902, 127985, 127987, 127990, 127991,
  128254, 128255, 128318, 128329, 128335, 128336, 128360, 128367, 128369, 128371, 128379, 128391,
  128392, 128394, 128398, 128400, 128401, 128405, 128407, 128420, 128422, 128424, 128425, 128433,
  128435, 128444, 128445, 128450, 128453, 128465, 128468, 128476, 128479, 128481, 128482, 128483,
  128484, 128488, 128489, 128495, 128496, 128499, 128500, 128506, 128592, 128640, 128710, 128715,
  128723, 128725, 128728, 128733, 128742, 128745, 128746, 128747, 128749, 128752, 128753, 128755,
  128765, 128992, 129004, 129008, 129009, 129292, 129339, 129340, 129350, 129351, 129536, 129648,
  129653, 129656, 129661, 129664, 129671, 129680, 129709, 129712, 129723, 129728, 129734, 129744,
  129754, 129760, 129768, 129776, 129783]

def isEmoji (c : Char) : Bool := inRanges emojiChanges c.toNat

end GrammarScopes.Text
