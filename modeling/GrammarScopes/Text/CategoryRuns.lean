/-!
The general categories of all code points, as runs.  Each entry is `32 * first + index`, where
`first` is the first code point of a run and `index` the place of its category in
`Category.all`; the entries are sorted, and a run ends where the next one begins.
-/

namespace GrammarScopes.Text

set_option maxRecDepth 100000 in
/-- The runs of equal general category, in the order of the code points. -/
def categoryRuns : Array Nat := #[
  1, 1053, 1077, 1175, 1205, 1302, 1330, 1365, 1401, 1429, 1457, 1493, 1549, 1877, 1945, 2037,
  2089, 2934, 2965, 2994, 3032, 3056, 3096, 3109, 3958, 3993, 4018, 4057, 4065, 5149, 5173, 5207,
  5338, 5365, 5400, 5434, 5447, 5492, 5529, 5538, 5594, 5624, 5658, 5689, 5711, 5784, 5797, 5845,
  5912, 5935, 5959, 6003, 6031, 6133, 6153, 6905, 6921, 7141, 7929, 7941, 8201, 8229, 8265, 8293,
  8329, 8357, 8393, 8421, 8457, 8485, 8521, 8549, 8585, 8613, 8649, 8677, 8713, 8741, 8777, 8805,
  8841, 8869, 8905, 8933, 8969, 8997, 9033, 9061, 9097, 9125, 9161, 9189, 9225, 9253, 9289, 9317,
  9353, 9381, 9417, 9445, 9481, 9509, 9545, 9573, 9609, 9637, 9673, 9701, 9737, 9765, 9801, 9829,
  9865, 9893, 9929, 9957, 10025, 10053, 10089, 10117, 10153, 10181, 10217, 10245, 10281, 10309,
  10345, 10373, 10409, 10437, 10473, 10501, 10569, 10597, 10633, 10661, 10697, 10725, 10761,
  10789, 10825, 10853, 10889, 10917, 10953, 10981, 11017, 11045, 11081, 11109, 11145, 11173,
  11209, 11237, 11273, 11301, 11337, 11365, 11401, 11429, 11465, 11493, 11529, 11557, 11593,
  11621, 11657, 11685, 11721, 11749, 11785, 11813, 11849, 11877, 11913, 11941, 11977, 12005,
  12041, 12101, 12137, 12165, 12201, 12229, 12329, 12389, 12425, 12453, 12489, 12549, 12585,
  12677, 12745, 12869, 12905, 12965, 13001, 13093, 13193, 13253, 13289, 13349, 13385, 13413,
  13449, 13477, 13513, 13573, 13609, 13637, 13705, 13733, 13769, 13829, 13865, 13957, 13993,
  14021, 14057, 14117, 14183, 14217, 14245, 14343, 14473, 14504, 14533, 14569, 14600, 14629,
  14665, 14696, 14725, 14761, 14789, 14825, 14853, 14889, 14917, 14953, 14981, 15017, 15045,
  15081, 15109, 15145, 15173, 15209, 15237, 15305, 15333, 15369, 15397, 15433, 15461, 15497,
  15525, 15561, 15589, 15625, 15653, 15689, 15717, 15753, 15781, 15817, 15845, 15913, 15944,
  15973, 16009, 16037, 16073, 16165, 16201, 16229, 16265, 16293, 16329, 16357, 16393, 16421,
  16457, 16485, 16521, 16549, 16585, 16613, 16649, 16677, 16713, 16741, 16777, 16805, 16841,
  16869, 16905, 16933, 16969, 16997, 17033, 17061, 17097, 17125, 17161, 17189, 17225, 17253,
  17289, 17317, 17353, 17381, 17417, 17445, 17481, 17509, 17545, 17573, 17609, 17637, 17673,
  17701, 17737, 17765, 17801, 17829, 17865, 17893, 17929, 17957, 17993, 18021, 18249, 18309,
  18345, 18405, 18473, 18501, 18537, 18661, 18697, 18725, 18761, 18789, 18825, 18853, 18889,
  18917, 21127, 21157, 22022, 22616, 22726, 23128, 23558, 23736, 23942, 23992, 24006, 24056,
  24588, 28169, 28197, 28233, 28261, 28294, 28344, 28361, 28389, 28416, 28486, 28517, 28629,
  28649, 28672, 28824, 28873, 28917, 28937, 29024, 29065, 29088, 29129, 29189, 29225, 29760,
  29801, 30085, 31209, 31237, 31305, 31397, 31497, 31525, 31561, 31589, 31625, 31653, 31689,
  31717, 31753, 31781, 31817, 31845, 31881, 31909, 31945, 31973, 32009, 32037, 32073, 32101,
  32137, 32165, 32201, 32229, 32393, 32421, 32473, 32489, 32517, 32553, 32613, 32681, 34309,
  35849, 35877, 35913, 35941, 35977, 36005, 36041, 36069, 36105, 36133, 36169, 36197, 36233,
  36261, 36297, 36325, 36361, 36389, 36425, 36453, 36489, 36517, 36553, 36581, 36617, 36645,
  36681, 36709, 36745, 36773, 36809, 36837, 36873, 36901, 36954, 36972, 37131, 37193, 37221,
  37257, 37285, 37321, 37349, 37385, 37413, 37449, 37477, 37513, 37541, 37577, 37605, 37641,
  37669, 37705, 37733, 37769, 37797, 37833, 37861, 37897, 37925, 37961, 37989, 38025, 38053,
  38089, 38117, 38153, 38181, 38217, 38245, 38281, 38309, 38345, 38373, 38409, 38437, 38473,
  38501, 38537, 38565, 38601, 38629, 38665, 38693, 38729, 38757, 38793, 38821, 38857, 38885,
  38921, 38981, 39017, 39045, 39081, 39109, 39145, 39173, 39209, 39237, 39273, 39301, 39337,
  39365, 39433, 39461, 39497, 39525, 39561, 39589, 39625, 39653, 39689, 39717, 39753, 39781,
  39817, 39845, 39881, 39909, 39945, 39973, 40009, 40037, 40073, 40101, 40137, 40165, 40201,
  40229, 40265, 40293, 40329, 40357, 40393, 40421, 40457, 40485, 40521, 40549, 40585, 40613,
  40649, 40677, 40713, 40741, 40777, 40805, 40841, 40869, 40905, 40933, 40969, 40997, 41033,
  41061, 41097, 41125, 41161, 41189, 41225, 41253, 41289, 41317, 41353, 41381, 41417, 41445,
  41481, 41509, 41545, 41573, 41609, 41637, 41673, 41701, 41737, 41765, 41801, 41829, 41865,
  41893, 41929, 41957, 41993, 42021, 42057, 42085, 42121, 42149, 42185, 42213, 42249, 42277,
  42313, 42341, 42377, 42405, 42441, 42469, 42496, 42537, 43744, 43814, 43861, 44037, 45365,
  45393, 45408, 45498, 45559, 45568, 45612, 47057, 47084, 47125, 47148, 47221, 47244, 47317,
  47340, 47360, 47623, 48480, 48615, 48757, 48800, 49154, 49369, 49461, 49527, 49557, 49626,
  49676, 50037, 50050, 50101, 50183, 51206, 51239, 51564, 52237, 52565, 52679, 52748, 52775,
  55957, 55975, 56012, 56226, 56282, 56300, 56486, 56556, 56634, 56652, 56775, 56845, 57159,
  57274, 57319, 57365, 57792, 57826, 57863, 57900, 57927, 58892, 59744, 59815, 62668, 63015,
  63040, 63501, 63815, 64876, 65158, 65242, 65269, 65350, 65376, 65452, 65495, 65543, 66252,
  66374, 66412, 66694, 66732, 66822, 66860, 67008, 67093, 67552, 67591, 68396, 68480, 68565,
  68576, 68615, 68960, 69127, 69912, 69927, 70112, 70146, 70208, 70412, 70663, 71974, 72012,
  72770, 72812, 73834, 73863, 75596, 75626, 75660, 75687, 75722, 75820, 76074, 76204, 76234,
  76295, 76332, 76551, 76876, 76949, 77005, 77333, 77350, 77383, 77868, 77898, 77952, 77991,
  78240, 78311, 78368, 78439, 79136, 79175, 79392, 79431, 79456, 79559, 79680, 79756, 79783,
  79818, 79916, 80032, 80106, 80160, 80234, 80300, 80327, 80352, 80618, 80640, 80775, 80832,
  80871, 80972, 81024, 81101, 81415, 81495, 81551, 81754, 81783, 81799, 81845, 81868, 81888,
  81964, 82026, 82048, 82087, 82272, 82407, 82464, 82535, 83232, 83271, 83488, 83527, 83584,
  83623, 83680, 83719, 83776, 83852, 83872, 83914, 84012, 84064, 84204, 84256, 84332, 84416,
  84524, 84544, 84775, 84896, 84935, 84960, 85197, 85516, 85575, 85676, 85717, 85728, 86060,
  86122, 86144, 86183, 86464, 86503, 86592, 86631, 87328, 87367, 87584, 87623, 87680, 87719,
  87872, 87948, 87975, 88010, 88108, 88256, 88300, 88362, 88384, 88426, 88492, 88512, 88583,
  88608, 89095, 89164, 89216, 89293, 89621, 89655, 89664, 89895, 89932, 90112, 90156, 90186,
  90240, 90279, 90528, 90599, 90656, 90727, 91424, 91463, 91680, 91719, 91776, 91815, 91968,
  92044, 92071, 92106, 92140, 92170, 92204, 92320, 92394, 92448, 92522, 92588, 92608, 92844,
  92906, 92928, 93063, 93120, 93159, 93260, 93312, 93389, 93722, 93735, 93775, 93952, 94284,
  94311, 94336, 94375, 94560, 94663, 94752, 94791, 94912, 95015, 95072, 95111, 95136, 95175,
  95232, 95335, 95392, 95495, 95584, 95687, 96064, 96202, 96268, 96298, 96352, 96458, 96544,
  96586, 96684, 96704, 96775, 96800, 97002, 97024, 97485, 97807, 97914, 98103, 98138, 98144,
  98316, 98346, 98444, 98471, 98720, 98759, 98848, 98887, 99616, 99655, 100160, 100236, 100263,
  100300, 100394, 100512, 100556, 100640, 100684, 100800, 101036, 101088, 101127, 101216, 101287,
  101312, 101383, 101452, 101504, 101581, 101888, 102133, 102159, 102394, 102407, 102444, 102474,
  102549, 102567, 102816, 102855, 102944, 102983, 103712, 103751, 104064, 104103, 104256, 104332,
  104359, 104394, 104428, 104458, 104608, 104652, 104682, 104736, 104778, 104844, 104896, 105130,
  105184, 105383, 105440, 105479, 105548, 105600, 105677, 105984, 106023, 106090, 106112, 106508,
  106570, 106631, 106912, 106951, 107040, 107079, 108396, 108455, 108490, 108588, 108704, 108746,
  108832, 108874, 108972, 108999, 109050, 109056, 109191, 109290, 109327, 109543, 109644, 109696,
  109773, 110095, 110394, 110407, 110592, 110636, 110666, 110720, 110759, 111328, 111431, 112192,
  112231, 112512, 112551, 112576, 112647, 112864, 112972, 112992, 113130, 113228, 113312, 113356,
  113376, 113418, 113664, 113869, 114176, 114250, 114325, 114336, 114727, 116268, 116295, 116364,
  116576, 116727, 116743, 116934, 116972, 117237, 117261, 117589, 117632, 118823, 118880, 118919,
  118944, 118983, 119136, 119175, 119936, 119975, 120000, 120039, 120364, 120391, 120460, 120743,
  120768, 120839, 120992, 121030, 121056, 121100, 121312, 121357, 121664, 121735, 121856, 122887,
  122938, 123029, 123514, 123541, 123578, 123660, 123738, 123917, 124239, 124570, 124588, 124634,
  124652, 124698, 124716, 124758, 124786, 124822, 124850, 124874, 124935, 125184, 125223, 126368,
  126508, 126954, 126988, 127157, 127180, 127239, 127404, 127744, 127788, 128928, 128986, 129228,
  129274, 129440, 129498, 129557, 129722, 129845, 129888, 131079, 132458, 132524, 132650, 132684,
  132874, 132908, 132970, 133036, 133095, 133133, 133461, 133639, 133834, 133900, 133959, 134092,
  134183, 134218, 134311, 134378, 134599, 134700, 134823, 135244, 135274, 135340, 135402, 135596,
  135623, 135658, 135693, 136010, 136108, 136154, 136201, 137408, 137449, 137472, 137641, 137664,
  137733, 139125, 139142, 139173, 139271, 149792, 149831, 149952, 150023, 150240, 150279, 150304,
  150343, 150464, 150535, 151840, 151879, 152000, 152071, 153120, 153159, 153280, 153351, 153568,
  153607, 153632, 153671, 153792, 153863, 154336, 154375, 156192, 156231, 156352, 156423, 158560,
  158636, 158741, 159023, 159648, 159751, 160282, 160576, 160777, 163520, 163589, 163776, 163857,
  163879, 183738, 183765, 183783, 184349, 184359, 185206, 185234, 185248, 185351, 187765, 187854,
  187943, 188192, 188423, 189004, 189098, 189120, 189415, 190028, 190090, 190133, 190176, 190471,
  191052, 191104, 191495, 191904, 191943, 192032, 192076, 192128, 192519, 194188, 194250, 194284,
  194506, 194764, 194794, 194860, 195221, 195302, 195349, 195447, 195463, 195500, 195520, 195597,
  195904, 196111, 196416, 196629, 196817, 196853, 196972, 197058, 197100, 197133, 197440, 197639,
  198758, 198791, 200480, 200711, 200876, 200935, 202028, 202055, 202080, 202247, 204480, 204807,
  205792, 205836, 205930, 206060, 206122, 206208, 206346, 206412, 206442, 206636, 206720, 206874,
  206880, 206997, 207053, 207367, 208320, 208391, 208544, 208903, 210304, 210439, 211264, 211469,
  211791, 211808, 211930, 212999, 213740, 213802, 213868, 213888, 213973, 214023, 215722, 215756,
  215786, 215820, 216032, 216076, 216106, 216140, 216170, 216236, 216490, 216684, 216992, 217068,
  217101, 217408, 217613, 217920, 218133, 218342, 218389, 218560, 218636, 219083, 219116, 219616,
  221196, 221322, 221351, 222860, 222890, 222924, 223082, 223116, 223146, 223308, 223338, 223399,
  223648, 223757, 224085, 224314, 224620, 224922, 225205, 225248, 225292, 225354, 225383, 226346,
  226380, 226506, 226572, 226634, 226668, 226759, 226829, 227143, 228556, 228586, 228620, 228682,
  228780, 228810, 228844, 228938, 228992, 229269, 229383, 230538, 230796, 231050, 231116, 231168,
  231285, 231437, 231744, 231847, 231949, 232263, 233222, 233429, 233477, 233760, 233993, 235360,
  235433, 235541, 235776, 236044, 236149, 236172, 236586, 236620, 236839, 236972, 236999, 237196,
  237223, 237290, 237324, 237383, 237408, 237573, 238982, 240997, 241414, 241445, 242534, 243724,
  245769, 245797, 245833, 245861, 245897, 245925, 245961, 245989, 246025, 246053, 246089, 246117,
  246153, 246181, 246217, 246245, 246281, 246309, 246345, 246373, 246409, 246437, 246473, 246501,
  246537, 246565, 246601, 246629, 246665, 246693, 246729, 246757, 246793, 246821, 246857, 246885,
  246921, 246949, 246985, 247013, 247049, 247077, 247113, 247141, 247177, 247205, 247241, 247269,
  247305, 247333, 247369, 247397, 247433, 247461, 247497, 247525, 247561, 247589, 247625, 247653,
  247689, 247717, 247753, 247781, 247817, 247845, 247881, 247909, 247945, 247973, 248009, 248037,
  248073, 248101, 248137, 248165, 248201, 248229, 248265, 248293, 248329, 248357, 248393, 248421,
  248457, 248485, 248521, 248549, 248585, 248613, 248649, 248677, 248713, 248741, 248777, 248805,
  248841, 248869, 248905, 248933, 248969, 248997, 249033, 249061, 249097, 249125, 249161, 249189,
  249225, 249253, 249289, 249317, 249353, 249381, 249417, 249445, 249481, 249509, 249545, 249573,
  249609, 249637, 249673, 249701, 249737, 249765, 249801, 249829, 249865, 249893, 249929, 249957,
  249993, 250021, 250057, 250085, 250121, 250149, 250185, 250213, 250249, 250277, 250313, 250341,
  250377, 250405, 250441, 250469, 250505, 250533, 250825, 250853, 250889, 250917, 250953, 250981,
  251017, 251045, 251081, 251109, 251145, 251173, 251209, 251237, 251273, 251301, 251337, 251365,
  251401, 251429, 251465, 251493, 251529, 251557, 251593, 251621, 251657, 251685, 251721, 251749,
  251785, 251813, 251849, 251877, 251913, 251941, 251977, 252005, 252041, 252069, 252105, 252133,
  252169, 252197, 252233, 252261, 252297, 252325, 252361, 252389, 252425, 252453, 252489, 252517,
  252553, 252581, 252617, 252645, 252681, 252709, 252745, 252773, 252809, 252837, 252873, 252901,
  252937, 252965, 253001, 253029, 253065, 253093, 253129, 253157, 253193, 253221, 253257, 253285,
  253321, 253349, 253385, 253413, 253449, 253477, 253513, 253541, 253577, 253605, 253641, 253669,
  253705, 253733, 253769, 253797, 253833, 253861, 253897, 253925, 254217, 254469, 254656, 254729,
  254912, 254981, 255241, 255493, 255753, 256005, 256192, 256265, 256448, 256517, 256768, 256809,
  256832, 256873, 256896, 256937, 256960, 257001, 257029, 257289, 257541, 257984, 258053, 258312,
  258565, 258824, 259077, 259336, 259589, 259744, 259781, 259849, 259976, 260024, 260037, 260088,
  260165, 260256, 260293, 260361, 260488, 260536, 260613, 260736, 260805, 260873, 260992, 261048,
  261125, 261385, 261560, 261632, 261701, 261792, 261829, 261897, 262024, 262072, 262112, 262173,
  262498, 262673, 262869, 262932, 262963, 262998, 263028, 263091, 263126, 263156, 263189, 263451,
  263484, 263490, 263677, 263701, 263988, 264019, 264053, 264176, 264245, 264345, 264374, 264402,
  264437, 264793, 264821, 264848, 264885, 265213, 265218, 265376, 265410, 265743, 265766, 265792,
  265871, 266073, 266166, 266194, 266214, 266255, 266585, 266678, 266706, 266720, 266758, 267168,
  267287, 268320, 268812, 269227, 269356, 269387, 269484, 269856, 270362, 270409, 270458, 270569,
  270618, 270661, 270697, 270789, 270857, 270949, 271002, 271017, 271066, 271129, 271145, 271322,
  271497, 271546, 271561, 271610, 271625, 271674, 271689, 271834, 271845, 271881, 272005, 272039,
  272165, 272218, 272261, 272329, 272409, 272553, 272581, 272730, 272761, 272794, 272837, 272890,
  272911, 273422, 274537, 274565, 274606, 274735, 274778, 274816, 274969, 275130, 275289, 275354,
  275481, 275514, 275577, 275610, 275673, 275706, 275929, 275962, 276953, 277018, 277081, 277114,
  277145, 277178, 278169, 286746, 286998, 287026, 287062, 287090, 287130, 287769, 287834, 288054,
  288082, 288122, 290713, 290746, 291705, 292506, 293785, 293978, 296160, 296986, 297312, 297999,
  299930, 302415, 303130, 308985, 309018, 309305, 309338, 311065, 311322, 314873, 314906, 322838,
  322866, 322902, 322930, 322966, 322994, 323030, 323058, 323094, 323122, 323158, 323186, 323222,
  323250, 323279, 324250, 325657, 325814, 325842, 325881, 326870, 326898, 326934, 326962, 326998,
  327026, 327062, 327090, 327126, 327154, 327193, 327706, 335897, 340086, 340114, 340150, 340178,
  340214, 340242, 340278, 340306, 340342, 340370, 340406, 340434, 340470, 340498, 340534, 340562,
  340598, 340626, 340662, 340690, 340726, 340754, 340793, 342806, 342834, 342870, 342898, 342937,
  343958, 343986, 344025, 352282, 353817, 354490, 354553, 354746, 355968, 356058, 357056, 357114,
  360457, 361989, 363529, 363557, 363593, 363685, 363753, 363781, 363817, 363845, 363881, 363909,
  363945, 364069, 364105, 364133, 364201, 364229, 364422, 364489, 364581, 364617, 364645, 364681,
  364709, 364745, 364773, 364809, 364837, 364873, 364901, 364937, 364965, 365001, 365029, 365065,
  365093, 365129, 365157, 365193, 365221, 365257, 365285, 365321, 365349, 365385, 365413, 365449,
  365477, 365513, 365541, 365577, 365605, 365641, 365669, 365705, 365733, 365769, 365797, 365833,
  365861, 365897, 365925, 365961, 365989, 366025, 366053, 366089, 366117, 366153, 366181, 366217,
  366245, 366281, 366309, 366345, 366373, 366409, 366437, 366473, 366501, 366537, 366565, 366601,
  366629, 366665, 366693, 366729, 366757, 366793, 366821, 366857, 366885, 366921, 366949, 366985,
  367013, 367049, 367077, 367113, 367141, 367177, 367205, 367241, 367269, 367305, 367333, 367369,
  367397, 367433, 367461, 367497, 367525, 367561, 367589, 367625, 367653, 367689, 367717, 367802,
  367977, 368005, 368041, 368069, 368108, 368201, 368229, 368256, 368437, 368559, 368597, 368645,
  369856, 369893, 369920, 370085, 370112, 370183, 371968, 372198, 372245, 372256, 372716, 372743,
  373472, 373767, 373984, 374023, 374240, 374279, 374496, 374535, 374752, 374791, 375008, 375047,
  375264, 375303, 375520, 375559, 375776, 375820, 376853, 376916, 376947, 376980, 377011, 377045,
  377140, 377171, 377205, 377236, 377267, 377301, 377585, 377621, 377681, 377717, 377748, 377779,
  377813, 377876, 377907, 377942, 377970, 378006, 378034, 378070, 378098, 378134, 378162, 378197,
  378342, 378389, 378705, 378773, 378897, 378933, 378966, 378997, 379418, 379477, 379574, 379602,
  379638, 379666, 379702, 379730, 379766, 379794, 379825, 379840, 380954, 381760, 381818, 384640,
  385050, 391872, 392730, 393088, 393245, 393269, 393370, 393382, 393415, 393454, 393494, 393522,
  393558, 393586, 393622, 393650, 393686, 393714, 393750, 393778, 393818, 393878, 393906, 393942,
  393970, 394006, 394034, 394070, 394098, 394129, 394166, 394194, 394266, 394286, 394572, 394698,
  394769, 394790, 394970, 395022, 395110, 395143, 395189, 395226, 395264, 395303, 398048, 398124,
  398200, 398246, 398311, 398353, 398375, 401269, 401286, 401383, 401408, 401575, 402944, 402983,
  405984, 406042, 406095, 406234, 406535, 407578, 408704, 409095, 409626, 410592, 410639, 410970,
  411919, 412186, 412207, 412698, 413711, 414042, 415279, 415770, 425991, 636954, 638983,
  1311398, 1311431, 1348000, 1348122, 1349856, 1350151, 1351430, 1351637, 1351687, 1360262,
  1360309, 1360391, 1360909, 1361223, 1361280, 1361929, 1361957, 1361993, 1362021, 1362057,
  1362085, 1362121, 1362149, 1362185, 1362213, 1362249, 1362277, 1362313, 1362341, 1362377,
  1362405, 1362441, 1362469, 1362505, 1362533, 1362569, 1362597, 1362633, 1362661, 1362697,
  1362725, 1362761, 1362789, 1362825, 1362853, 1362889, 1362917, 1362953, 1362981, 1363017,
  1363045, 1363081, 1363109, 1363145, 1363173, 1363209, 1363237, 1363273, 1363301, 1363337,
  1363365, 1363399, 1363436, 1363467, 1363573, 1363596, 1363925, 1363942, 1363977, 1364005,
  1364041, 1364069, 1364105, 1364133, 1364169, 1364197, 1364233, 1364261, 1364297, 1364325,
  1364361, 1364389, 1364425, 1364453, 1364489, 1364517, 1364553, 1364581, 1364617, 1364645,
  1364681, 1364709, 1364745, 1364773, 1364809, 1364837, 1364870, 1364940, 1364999, 1367246,
  1367564, 1367637, 1367808, 1368088, 1368806, 1369112, 1369161, 1369189, 1369225, 1369253,
  1369289, 1369317, 1369353, 1369381, 1369417, 1369445, 1369481, 1369509, 1369545, 1369573,
  1369673, 1369701, 1369737, 1369765, 1369801, 1369829, 1369865, 1369893, 1369929, 1369957,
  1369993, 1370021, 1370057, 1370085, 1370121, 1370149, 1370185, 1370213, 1370249, 1370277,
  1370313, 1370341, 1370377, 1370405, 1370441, 1370469, 1370505, 1370533, 1370569, 1370597,
  1370633, 1370661, 1370697, 1370725, 1370761, 1370789, 1370825, 1370853, 1370889, 1370917,
  1370953, 1370981, 1371017, 1371045, 1371081, 1371109, 1371145, 1371173, 1371209, 1371237,
  1371273, 1371301, 1371337, 1371365, 1371401, 1371429, 1371465, 1371493, 1371529, 1371557,
  1371593, 1371621, 1371654, 1371685, 1371945, 1371973, 1372009, 1372037, 1372073, 1372133,
  1372169, 1372197, 1372233, 1372261, 1372297, 1372325, 1372361, 1372389, 1372422, 1372472,
  1372521, 1372549, 1372585, 1372613, 1372647, 1372681, 1372709, 1372745, 1372773, 1372873,
  1372901, 1372937, 1372965, 1373001, 1373029, 1373065, 1373093, 1373129, 1373157, 1373193,
  1373221, 1373257, 1373285, 1373321, 1373349, 1373385, 1373413, 1373449, 1373477, 1373513,
  1373669, 1373705, 1373861, 1373897, 1373925, 1373961, 1373989, 1374025, 1374053, 1374089,
  1374117, 1374153, 1374181, 1374217, 1374245, 1374281, 1374309, 1374345, 1374469, 1374505,
  1374533, 1374560, 1374729, 1374757, 1374784, 1374821, 1374848, 1374885, 1374921, 1374949,
  1374985, 1375013, 1375040, 1375814, 1375913, 1375941, 1375975, 1376006, 1376069, 1376103,
  1376332, 1376359, 1376460, 1376487, 1376620, 1376647, 1377386, 1377452, 1377514, 1377562,
  1377676, 1377696, 1377807, 1378010, 1378071, 1378106, 1378112, 1378311, 1379989, 1380096,
  1380362, 1380423, 1382026, 1382540, 1382592, 1382869, 1382925, 1383232, 1383436, 1384007,
  1384213, 1384295, 1384341, 1384359, 1384428, 1384461, 1384775, 1385676, 1385941, 1385991,
  1386732, 1387082, 1387136, 1387509, 1387527, 1388448, 1388556, 1388650, 1388679, 1390188,
  1390218, 1390284, 1390410, 1390476, 1390538, 1390645, 1391040, 1391078, 1391117, 1391424,
  1391573, 1391623, 1391788, 1391814, 1391847, 1392141, 1392455, 1392608, 1392647, 1393964,
  1394154, 1394220, 1394282, 1394348, 1394400, 1394695, 1394796, 1394823, 1395084, 1395114,
  1395136, 1395213, 1395520, 1395605, 1395719, 1396230, 1396263, 1396474, 1396551, 1396586,
  1396620, 1396650, 1396679, 1398284, 1398311, 1398348, 1398439, 1398508, 1398567, 1398732,
  1398791, 1398828, 1398855, 1398880, 1399655, 1399718, 1399765, 1399815, 1400170, 1400204,
  1400266, 1400341, 1400391, 1400422, 1400490, 1400524, 1400544, 1400871, 1401056, 1401127,
  1401312, 1401383, 1401568, 1401863, 1402080, 1402119, 1402336, 1402373, 1403768, 1403782,
  1403909, 1404198, 1404248, 1404288, 1404421, 1406983, 1408106, 1408172, 1408202, 1408268,
  1408298, 1408373, 1408394, 1408428, 1408448, 1408525, 1408832, 1409031, 1766528, 1766919,
  1767648, 1767783, 1769344, 1769476, 1835011, 2039815, 2051520, 2051591, 2054976, 2056197,
  2056416, 2056805, 2056960, 2057127, 2057164, 2057191, 2057529, 2057543, 2057952, 2057991,
  2058144, 2058183, 2058208, 2058247, 2058304, 2058343, 2058400, 2058439, 2061912, 2062432,
  2062951, 2074578, 2074614, 2074650, 2075143, 2077184, 2077255, 2078976, 2079226, 2079232,
  2080263, 2080663, 2080698, 2080780, 2081301, 2081526, 2081554, 2081589, 2081600, 2081804,
  2082325, 2082353, 2082416, 2082486, 2082514, 2082550, 2082578, 2082614, 2082642, 2082678,
  2082706, 2082742, 2082770, 2082806, 2082834, 2082870, 2082898, 2082934, 2082962, 2082997,
  2083062, 2083090, 2083125, 2083248, 2083349, 2083424, 2083477, 2083601, 2083638, 2083666,
  2083702, 2083730, 2083766, 2083794, 2083829, 2083929, 2083953, 2083993, 2084064, 2084117,
  2084151, 2084181, 2084224, 2084359, 2084512, 2084551, 2088864, 2088930, 2088960, 2089013,
  2089111, 2089141, 2089238, 2089266, 2089301, 2089337, 2089365, 2089393, 2089429, 2089485,
  2089813, 2089881, 2089973, 2090025, 2090870, 2090901, 2090930, 2090968, 2090992, 2091032,
  2091045, 2091894, 2091929, 2091954, 2091993, 2092022, 2092050, 2092085, 2092118, 2092146,
  2092181, 2092231, 2092550, 2092583, 2094022, 2094087, 2095072, 2095175, 2095360, 2095431,
  2095616, 2095687, 2095872, 2095943, 2096032, 2096151, 2096217, 2096248, 2096282, 2096311,
  2096352, 2096410, 2096441, 2096570, 2096608, 2096930, 2097050, 2097088, 2097159, 2097536,
  2097575, 2098400, 2098439, 2099040, 2099079, 2099136, 2099175, 2099648, 2099719, 2100160,
  2101255, 2105184, 2105365, 2105440, 2105583, 2107008, 2107130, 2107406, 2109103, 2109242,
  2109775, 2109850, 2109920, 2109978, 2110368, 2110490, 2110496, 2112026, 2113452, 2113472,
  2117639, 2118560, 2118663, 2120224, 2120716, 2120751, 2121600, 2121735, 2122767, 2122880,
  2123175, 2123822, 2123847, 2124110, 2124128, 2124295, 2125516, 2125664, 2125831, 2126784,
  2126837, 2126855, 2128000, 2128135, 2128405, 2128430, 2128576, 2129929, 2131205, 2132487,
  2134976, 2135053, 2135360, 2135561, 2136704, 2136837, 2137984, 2138119, 2139392, 2139655,
  2141312, 2141685, 2141705, 2142048, 2142089, 2142560, 2142601, 2142816, 2142857, 2142912,
  2142949, 2143296, 2143333, 2143808, 2143845, 2144064, 2144101, 2144160, 2146311, 2156256,
  2156551, 2157248, 2157575, 2157824, 2158598, 2158784, 2158822, 2160160, 2160198, 2160480,
  2162695, 2162880, 2162951, 2162976, 2163015, 2164416, 2164455, 2164512, 2164615, 2164640,
  2164711, 2165440, 2165493, 2165519, 2165767, 2166522, 2166575, 2166791, 2167776, 2168047,
  2168320, 2169863, 2170464, 2170503, 2170560, 2170735, 2170887, 2171599, 2171776, 2171893,
  2171911, 2172736, 2172917, 2172928, 2174983, 2176768, 2176911, 2176967, 2177039, 2177536,
  2177615, 2179079, 2179116, 2179200, 2179244, 2179296, 2179468, 2179591, 2179712, 2179751,
  2179840, 2179879, 2180800, 2180876, 2180960, 2181100, 2181135, 2181408, 2181653, 2181920,
  2182151, 2183087, 2183157, 2183175, 2184111, 2184192, 2185223, 2185498, 2185511, 2186412,
  2186464, 2186607, 2186773, 2186976, 2187271, 2188992, 2189109, 2189319, 2190016, 2190095,
  2190343, 2190944, 2191119, 2191367, 2191936, 2192181, 2192288, 2192687, 2192896, 2195463,
  2197792, 2199561, 2201184, 2201605, 2203232, 2203471, 2203655, 2204812, 2204928, 2205197,
  2205504, 2214927, 2215904, 2215943, 2217280, 2217324, 2217393, 2217408, 2217479, 2217536,
  2219948, 2220039, 2220975, 2221287, 2221312, 2221575, 2222284, 2222639, 2222773, 2222912,
  2223623, 2224204, 2224341, 2224448, 2225671, 2226351, 2226560, 2227207, 2227936, 2228234,
  2228268, 2228298, 2228327, 2230028, 2230517, 2230720, 2230863, 2231501, 2231820, 2231847,
  2231916, 2231975, 2232000, 2232300, 2232394, 2232423, 2233866, 2233964, 2234090, 2234156,
  2234229, 2234274, 2234325, 2234444, 2234464, 2234786, 2234816, 2234887, 2235680, 2235917,
  2236224, 2236428, 2236519, 2237676, 2237834, 2237868, 2238112, 2238157, 2238485, 2238599,
  2238634, 2238695, 2238720, 2238983, 2240108, 2240149, 2240199, 2240224, 2240524, 2240586,
  2240615, 2242154, 2242252, 2242538, 2242599, 2242741, 2242860, 2242997, 2243018, 2243052,
  2243085, 2243399, 2243445, 2243463, 2243509, 2243584, 2243631, 2244256, 2244615, 2245184,
  2245223, 2246026, 2246124, 2246218, 2246284, 2246314, 2246348, 2246421, 2246604, 2246631,
  2246700, 2246720, 2248711, 2248928, 2248967, 2248992, 2249031, 2249152, 2249191, 2249664,
  2249703, 2250037, 2250048, 2250247, 2251756, 2251786, 2251884, 2252128, 2252301, 2252608,
  2252812, 2252874, 2252928, 2252967, 2253216, 2253287, 2253344, 2253415, 2254112, 2254151,
  2254368, 2254407, 2254464, 2254503, 2254656, 2254700, 2254759, 2254794, 2254860, 2254890,
  2255008, 2255082, 2255136, 2255210, 2255296, 2255367, 2255392, 2255594, 2255616, 2255783,
  2255946, 2256000, 2256076, 2256288, 2256396, 2256544, 2260999, 2262698, 2262796, 2263050,
  2263116, 2263210, 2263244, 2263271, 2263413, 2263565, 2263893, 2263936, 2263989, 2264012,
  2264039, 2264128, 2265095, 2266634, 2266732, 2266922, 2266956, 2266986, 2267116, 2267178,
  2267212, 2267271, 2267349, 2267367, 2267392, 2267661, 2267968, 2273287, 2274794, 2274892,
  2275008, 2275082, 2275212, 2275274, 2275308, 2275381, 2276103, 2276236, 2276288, 2277383,
  2278922, 2279020, 2279274, 2279340, 2279370, 2279404, 2279477, 2279559, 2279584, 2279949,
  2280256, 2280469, 2280864, 2281479, 2282860, 2282890, 2282924, 2282954, 2283020, 2283210,
  2283244, 2283271, 2283317, 2283328, 2283533, 2283840, 2285575, 2286432, 2286508, 2286602,
  2286668, 2286794, 2286828, 2286976, 2287117, 2287439, 2287509, 2287610, 2287623, 2287840,
  2293767, 2295178, 2295276, 2295562, 2295596, 2295669, 2295680, 2298889, 2299909, 2300941,
  2301263, 2301536, 2301927, 2302176, 2302247, 2302272, 2302343, 2302592, 2302631, 2302688,
  2302727, 2303498, 2303680, 2303722, 2303776, 2303852, 2303914, 2303948, 2303975, 2304010,
  2304039, 2304074, 2304108, 2304149, 2304224, 2304525, 2304832, 2307079, 2307328, 2307399,
  2308650, 2308748, 2308864, 2308940, 2309002, 2309132, 2309159, 2309205, 2309223, 2309258,
  2309280, 2310151, 2310188, 2310503, 2311788, 2311978, 2312007, 2312044, 2312181, 2312428,
  2312448, 2312711, 2312748, 2312938, 2313004, 2313095, 2314572, 2314986, 2315020, 2315093,
  2315175, 2315221, 2315360, 2315783, 2318112, 2318357, 2318656, 2326535, 2326816, 2326855,
  2328042, 2328076, 2328288, 2328332, 2328522, 2328556, 2328583, 2328629, 2328768, 2329101,
  2329423, 2330016, 2330133, 2330183, 2331136, 2331212, 2331904, 2331946, 2331980, 2332202,
  2332236, 2332298, 2332332, 2332384, 2334727, 2334944, 2334983, 2335040, 2335079, 2336300,
  2336480, 2336588, 2336608, 2336652, 2336704, 2336748, 2336967, 2337004, 2337024, 2337293,
  2337600, 2337799, 2337984, 2338023, 2338080, 2338119, 2339146, 2339296, 2339340, 2339392,
  2339434, 2339500, 2339530, 2339564, 2339591, 2339616, 2339853, 2340160, 2350087, 2350700,
  2350762, 2350837, 2350880, 2351116, 2351175, 2351210, 2351239, 2351648, 2351687, 2352778,
  2352844, 2352992, 2353098, 2353164, 2353194, 2353228, 2353269, 2353677, 2353984, 2356743,
  2356768, 2357263, 2357946, 2358199, 2358330, 2358848, 2359285, 2359303, 2388800, 2392078,
  2395616, 2395669, 2395808, 2396167, 2402432, 2486791, 2489909, 2489952, 2490375, 2524674,
  2525196, 2525223, 2525420, 2525888, 2654215, 2672864, 2949127, 2967328, 2967559, 2968544,
  2968589, 2968896, 2969045, 2969095, 2971616, 2971661, 2971968, 2972167, 2973120, 2973196,
  2973365, 2973376, 2973703, 2975244, 2975477, 2975642, 2975750, 2975893, 2975930, 2975936,
  2976269, 2976576, 2976623, 2976832, 2976871, 2977536, 2977703, 2978304, 3000329, 3001349,
  3002383, 3003125, 3003232, 3006471, 3008864, 3009004, 3009031, 3009066, 3010816, 3011052,
  3011174, 3011584, 3013638, 3013717, 3013734, 3013772, 3013792, 3014154, 3014208, 3014663,
  3211008, 3211271, 3250880, 3252231, 3252512, 3538438, 3538560, 3538598, 3538816, 3538854,
  3538912, 3538951, 3548256, 3548743, 3548768, 3549703, 3549792, 3549863, 3549888, 3550343,
  3550464, 3550727, 3563392, 3637255, 3640672, 3640839, 3641248, 3641351, 3641632, 3641863,
  3642176, 3642266, 3642284, 3642357, 3642370, 3642496, 3792908, 3794368, 3794444, 3795168,
  3795482, 3799168, 3801114, 3808960, 3809306, 3810528, 3810618, 3812522, 3812588, 3812698,
  3812778, 3812962, 3813228, 3813498, 3813548, 3813786, 3814732, 3814874, 3816800, 3817498,
  3819596, 3819706, 3819712, 3823631, 3824256, 3824655, 3825280, 3825690, 3828448, 3828751,
  3829536, 3833865, 3834693, 3835529, 3836357, 3836576, 3836613, 3837193, 3838021, 3838857,
  3838880, 3838921, 3838976, 3839049, 3839072, 3839145, 3839200, 3839273, 3839392, 3839433,
  3839685, 3839808, 3839845, 3839872, 3839909, 3840128, 3840165, 3840521, 3841349, 3842185,
  3842240, 3842281, 3842400, 3842473, 3842720, 3842761, 3842976, 3843013, 3843849, 3843904,
  3843945, 3844064, 3844105, 3844256, 3844297, 3844320, 3844425, 3844640, 3844677, 3845513,
  3846341, 3847177, 3848005, 3848841, 3849669, 3850505, 3851333, 3852169, 3852997, 3853833,
  3854661, 3855552, 3855625, 3856441, 3856453, 3857273, 3857285, 3857481, 3858297, 3858309,
  3859129, 3859141, 3859337, 3860153, 3860165, 3860985, 3860997, 3861193, 3862009, 3862021,
  3862841, 3862853, 3863049, 3863865, 3863877, 3864697, 3864709, 3864905, 3864933, 3864960,
  3865037, 3866650, 3883020, 3884794, 3884908, 3886522, 3886764, 3886810, 3887244, 3887290,
  3887349, 3887488, 3887980, 3888128, 3888172, 3888640, 3923973, 3924295, 3924325, 3924960,
  3925157, 3925344, 3932172, 3932384, 3932428, 3932960, 3933036, 3933248, 3933292, 3933344,
  3933388, 3933536, 3933702, 3935680, 3936748, 3936768, 3940359, 3941792, 3941900, 3942118,
  3942336, 3942413, 3942720, 3942855, 3942906, 3942912, 3953159, 3954124, 3954144, 3954695,
  3956108, 3956237, 3956544, 3956727, 3956736, 3971591, 3972454, 3972492, 3972621, 3972928,
  3996679, 3996896, 3996935, 3997056, 3997095, 3997152, 3997191, 3997664, 3997703, 4004000,
  4004079, 4004364, 4004576, 4005897, 4006981, 4008076, 4008294, 4008320, 4008461, 4008768,
  4008917, 4008960, 4034095, 4035994, 4036015, 4036119, 4036143, 4036256, 4038703, 4040154,
  4040175, 4040640, 4046855, 4046976, 4047015, 4047872, 4047911, 4047968, 4048007, 4048032,
  4048103, 4048128, 4048167, 4048480, 4048519, 4048640, 4048679, 4048704, 4048743, 4048768,
  4048967, 4048992, 4049127, 4049152, 4049191, 4049216, 4049255, 4049280, 4049319, 4049408,
  4049447, 4049504, 4049543, 4049568, 4049639, 4049664, 4049703, 4049728, 4049767, 4049792,
  4049831, 4049856, 4049895, 4049920, 4049959, 4050016, 4050055, 4050080, 4050151, 4050272,
  4050311, 4050528, 4050567, 4050688, 4050727, 4050848, 4050887, 4050912, 4050951, 4051264,
  4051303, 4051840, 4052007, 4052096, 4052135, 4052288, 4052327, 4052864, 4054553, 4054592,
  4063258, 4064640, 4064794, 4067968, 4068378, 4068832, 4068922, 4069376, 4069434, 4069888,
  4069946, 4071104, 4071439, 4071866, 4076992, 4078810, 4079712, 4080154, 4081536, 4081690,
  4081952, 4082202, 4082240, 4082714, 4082880, 4087834, 4095864, 4096026, 4119296, 4119450,
  4119968, 4120090, 4120480, 4120602, 4124384, 4124538, 4127552, 4127770, 4128128, 4128282,
  4128288, 4128794, 4129152, 4129306, 4131072, 4131354, 4131648, 4131866, 4133120, 4133402,
  4134336, 4134426, 4134464, 4136986, 4147840, 4148250, 4148672, 4148762, 4149152, 4149274,
  4149536, 4149786, 4151232, 4151290, 4151488, 4151770, 4152192, 4152346, 4152608, 4152858,
  4153120, 4153370, 4158048, 4158106, 4159840, 4161037, 4161344, 4194311, 5561344, 5562375,
  5695296, 5695495, 5702592, 5702663, 5887040, 5887495, 6126624, 6225927, 6243264, 6291463,
  6449504, 6449671, 6583808, 29360162, 29360192, 29361154, 29364224, 29368332, 29376000,
  31457283, 33554368, 33554435, 35651520]

end GrammarScopes.Text
