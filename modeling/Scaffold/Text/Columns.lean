import Scaffold.Text.CodeRun

/-! How many terminal columns a text takes: East Asian wide characters take two, marks and controls
    none, all others one. -/

namespace Scaffold.Text

/-- Characters of two columns. -/
def wideRuns : List CodeRun :=
  [⟨4352, 4447, 1⟩, ⟨8986, 8987, 1⟩, ⟨9001, 9002, 1⟩, ⟨9193, 9196, 1⟩, ⟨9200, 9200, 1⟩,
   ⟨9203, 9203, 1⟩, ⟨9725, 9726, 1⟩, ⟨9748, 9749, 1⟩, ⟨9800, 9811, 1⟩, ⟨9855, 9855, 1⟩,
   ⟨9875, 9875, 1⟩, ⟨9889, 9889, 1⟩, ⟨9898, 9899, 1⟩, ⟨9917, 9918, 1⟩, ⟨9924, 9925, 1⟩,
   ⟨9934, 9934, 1⟩, ⟨9940, 9940, 1⟩, ⟨9962, 9962, 1⟩, ⟨9970, 9971, 1⟩, ⟨9973, 9973, 1⟩,
   ⟨9978, 9978, 1⟩, ⟨9981, 9981, 1⟩, ⟨9989, 9989, 1⟩, ⟨9994, 9995, 1⟩, ⟨10024, 10024, 1⟩,
   ⟨10060, 10060, 1⟩, ⟨10062, 10062, 1⟩, ⟨10067, 10069, 1⟩, ⟨10071, 10071, 1⟩, ⟨10133, 10135, 1⟩,
   ⟨10160, 10160, 1⟩, ⟨10175, 10175, 1⟩, ⟨11035, 11036, 1⟩, ⟨11088, 11088, 1⟩, ⟨11093, 11093, 1⟩,
   ⟨11904, 12329, 1⟩, ⟨12334, 12350, 1⟩, ⟨12353, 12438, 1⟩, ⟨12443, 12871, 1⟩, ⟨12880, 19903, 1⟩,
   ⟨19968, 42182, 1⟩, ⟨43360, 43388, 1⟩, ⟨44032, 55203, 1⟩, ⟨63744, 64255, 1⟩, ⟨65040, 65049, 1⟩,
   ⟨65072, 65131, 1⟩, ⟨65281, 65376, 1⟩, ⟨65504, 65510, 1⟩, ⟨94176, 94179, 1⟩, ⟨94192, 101640, 1⟩,
   ⟨110576, 111355, 1⟩, ⟨126980, 126980, 1⟩, ⟨127183, 127183, 1⟩, ⟨127374, 127374, 1⟩,
   ⟨127377, 127386, 1⟩, ⟨127488, 127776, 1⟩, ⟨127789, 127797, 1⟩, ⟨127799, 127868, 1⟩,
   ⟨127870, 127891, 1⟩, ⟨127904, 127946, 1⟩, ⟨127951, 127955, 1⟩, ⟨127968, 127984, 1⟩,
   ⟨127988, 127988, 1⟩, ⟨127992, 128062, 1⟩, ⟨128064, 128064, 1⟩, ⟨128066, 128252, 1⟩,
   ⟨128255, 128317, 1⟩, ⟨128331, 128334, 1⟩, ⟨128336, 128359, 1⟩, ⟨128378, 128378, 1⟩,
   ⟨128405, 128406, 1⟩, ⟨128420, 128420, 1⟩, ⟨128507, 128591, 1⟩, ⟨128640, 128709, 1⟩,
   ⟨128716, 128716, 1⟩, ⟨128720, 128722, 1⟩, ⟨128725, 128735, 1⟩, ⟨128747, 128748, 1⟩,
   ⟨128756, 128764, 1⟩, ⟨128992, 129008, 1⟩, ⟨129292, 129338, 1⟩, ⟨129340, 129349, 1⟩,
   ⟨129351, 129535, 1⟩, ⟨129648, 129782, 1⟩, ⟨131072, 262141, 1⟩]

/-- Characters from U+0080 on that take no column. -/
def zeroWidthRuns : List CodeRun :=
  [⟨128, 159, 1⟩, ⟨768, 879, 1⟩, ⟨1155, 1161, 1⟩, ⟨1425, 1469, 1⟩, ⟨1471, 1471, 1⟩, ⟨1473, 1474, 1⟩,
   ⟨1476, 1477, 1⟩, ⟨1479, 1479, 1⟩, ⟨1536, 1541, 1⟩, ⟨1552, 1562, 1⟩, ⟨1564, 1564, 1⟩,
   ⟨1611, 1631, 1⟩, ⟨1648, 1648, 1⟩, ⟨1750, 1757, 1⟩, ⟨1759, 1764, 1⟩, ⟨1767, 1768, 1⟩,
   ⟨1770, 1773, 1⟩, ⟨1807, 1807, 1⟩, ⟨1809, 1809, 1⟩, ⟨1840, 1866, 1⟩, ⟨1958, 1968, 1⟩,
   ⟨2027, 2035, 1⟩, ⟨2045, 2045, 1⟩, ⟨2070, 2073, 1⟩, ⟨2075, 2083, 1⟩, ⟨2085, 2087, 1⟩,
   ⟨2089, 2093, 1⟩, ⟨2137, 2139, 1⟩, ⟨2192, 2207, 1⟩, ⟨2250, 2306, 1⟩, ⟨2362, 2362, 1⟩,
   ⟨2364, 2364, 1⟩, ⟨2369, 2376, 1⟩, ⟨2381, 2381, 1⟩, ⟨2385, 2391, 1⟩, ⟨2402, 2403, 1⟩,
   ⟨2433, 2433, 1⟩, ⟨2492, 2492, 1⟩, ⟨2497, 2500, 1⟩, ⟨2509, 2509, 1⟩, ⟨2530, 2531, 1⟩,
   ⟨2558, 2562, 1⟩, ⟨2620, 2620, 1⟩, ⟨2625, 2641, 1⟩, ⟨2672, 2673, 1⟩, ⟨2677, 2677, 1⟩,
   ⟨2689, 2690, 1⟩, ⟨2748, 2748, 1⟩, ⟨2753, 2760, 1⟩, ⟨2765, 2765, 1⟩, ⟨2786, 2787, 1⟩,
   ⟨2810, 2817, 1⟩, ⟨2876, 2876, 1⟩, ⟨2879, 2879, 1⟩, ⟨2881, 2884, 1⟩, ⟨2893, 2902, 1⟩,
   ⟨2914, 2915, 1⟩, ⟨2946, 2946, 1⟩, ⟨3008, 3008, 1⟩, ⟨3021, 3021, 1⟩, ⟨3072, 3072, 1⟩,
   ⟨3076, 3076, 1⟩, ⟨3132, 3132, 1⟩, ⟨3134, 3136, 1⟩, ⟨3142, 3158, 1⟩, ⟨3170, 3171, 1⟩,
   ⟨3201, 3201, 1⟩, ⟨3260, 3260, 1⟩, ⟨3263, 3263, 1⟩, ⟨3270, 3270, 1⟩, ⟨3276, 3277, 1⟩,
   ⟨3298, 3299, 1⟩, ⟨3328, 3329, 1⟩, ⟨3387, 3388, 1⟩, ⟨3393, 3396, 1⟩, ⟨3405, 3405, 1⟩,
   ⟨3426, 3427, 1⟩, ⟨3457, 3457, 1⟩, ⟨3530, 3530, 1⟩, ⟨3538, 3542, 1⟩, ⟨3633, 3633, 1⟩,
   ⟨3636, 3642, 1⟩, ⟨3655, 3662, 1⟩, ⟨3761, 3761, 1⟩, ⟨3764, 3772, 1⟩, ⟨3784, 3789, 1⟩,
   ⟨3864, 3865, 1⟩, ⟨3893, 3893, 1⟩, ⟨3895, 3895, 1⟩, ⟨3897, 3897, 1⟩, ⟨3953, 3966, 1⟩,
   ⟨3968, 3972, 1⟩, ⟨3974, 3975, 1⟩, ⟨3981, 4028, 1⟩, ⟨4038, 4038, 1⟩, ⟨4141, 4144, 1⟩,
   ⟨4146, 4151, 1⟩, ⟨4153, 4154, 1⟩, ⟨4157, 4158, 1⟩, ⟨4184, 4185, 1⟩, ⟨4190, 4192, 1⟩,
   ⟨4209, 4212, 1⟩, ⟨4226, 4226, 1⟩, ⟨4229, 4230, 1⟩, ⟨4237, 4237, 1⟩, ⟨4253, 4253, 1⟩,
   ⟨4448, 4607, 1⟩, ⟨4957, 4959, 1⟩, ⟨5906, 5908, 1⟩, ⟨5938, 5939, 1⟩, ⟨5970, 5971, 1⟩,
   ⟨6002, 6003, 1⟩, ⟨6068, 6069, 1⟩, ⟨6071, 6077, 1⟩, ⟨6086, 6086, 1⟩, ⟨6089, 6099, 1⟩,
   ⟨6109, 6109, 1⟩, ⟨6155, 6159, 1⟩, ⟨6277, 6278, 1⟩, ⟨6313, 6313, 1⟩, ⟨6432, 6434, 1⟩,
   ⟨6439, 6440, 1⟩, ⟨6450, 6450, 1⟩, ⟨6457, 6459, 1⟩, ⟨6679, 6680, 1⟩, ⟨6683, 6683, 1⟩,
   ⟨6742, 6742, 1⟩, ⟨6744, 6752, 1⟩, ⟨6754, 6754, 1⟩, ⟨6757, 6764, 1⟩, ⟨6771, 6783, 1⟩,
   ⟨6832, 6915, 1⟩, ⟨6964, 6964, 1⟩, ⟨6966, 6970, 1⟩, ⟨6972, 6972, 1⟩, ⟨6978, 6978, 1⟩,
   ⟨7019, 7027, 1⟩, ⟨7040, 7041, 1⟩, ⟨7074, 7077, 1⟩, ⟨7080, 7081, 1⟩, ⟨7083, 7085, 1⟩,
   ⟨7142, 7142, 1⟩, ⟨7144, 7145, 1⟩, ⟨7149, 7149, 1⟩, ⟨7151, 7153, 1⟩, ⟨7212, 7219, 1⟩,
   ⟨7222, 7223, 1⟩, ⟨7376, 7378, 1⟩, ⟨7380, 7392, 1⟩, ⟨7394, 7400, 1⟩, ⟨7405, 7405, 1⟩,
   ⟨7412, 7412, 1⟩, ⟨7416, 7417, 1⟩, ⟨7616, 7679, 1⟩, ⟨8203, 8207, 1⟩, ⟨8234, 8238, 1⟩,
   ⟨8288, 8303, 1⟩, ⟨8400, 8432, 1⟩, ⟨11503, 11505, 1⟩, ⟨11647, 11647, 1⟩, ⟨11744, 11775, 1⟩,
   ⟨12330, 12333, 1⟩, ⟨12441, 12442, 1⟩, ⟨12644, 12644, 1⟩, ⟨42607, 42610, 1⟩, ⟨42612, 42621, 1⟩,
   ⟨42654, 42655, 1⟩, ⟨42736, 42737, 1⟩, ⟨43010, 43010, 1⟩, ⟨43014, 43014, 1⟩, ⟨43019, 43019, 1⟩,
   ⟨43045, 43046, 1⟩, ⟨43052, 43052, 1⟩, ⟨43204, 43205, 1⟩, ⟨43232, 43249, 1⟩, ⟨43263, 43263, 1⟩,
   ⟨43302, 43309, 1⟩, ⟨43335, 43345, 1⟩, ⟨43392, 43394, 1⟩, ⟨43443, 43443, 1⟩, ⟨43446, 43449, 1⟩,
   ⟨43452, 43453, 1⟩, ⟨43493, 43493, 1⟩, ⟨43561, 43566, 1⟩, ⟨43569, 43570, 1⟩, ⟨43573, 43574, 1⟩,
   ⟨43587, 43587, 1⟩, ⟨43596, 43596, 1⟩, ⟨43644, 43644, 1⟩, ⟨43696, 43696, 1⟩, ⟨43698, 43700, 1⟩,
   ⟨43703, 43704, 1⟩, ⟨43710, 43711, 1⟩, ⟨43713, 43713, 1⟩, ⟨43756, 43757, 1⟩, ⟨43766, 43766, 1⟩,
   ⟨44005, 44005, 1⟩, ⟨44008, 44008, 1⟩, ⟨44013, 44013, 1⟩, ⟨64286, 64286, 1⟩, ⟨65024, 65039, 1⟩,
   ⟨65056, 65071, 1⟩, ⟨65279, 65279, 1⟩, ⟨65440, 65440, 1⟩, ⟨65529, 65531, 1⟩, ⟨66045, 66045, 1⟩,
   ⟨66272, 66272, 1⟩, ⟨66422, 66426, 1⟩, ⟨68097, 68111, 1⟩, ⟨68152, 68159, 1⟩, ⟨68325, 68326, 1⟩,
   ⟨68900, 68903, 1⟩, ⟨69291, 69292, 1⟩, ⟨69446, 69456, 1⟩, ⟨69506, 69509, 1⟩, ⟨69633, 69633, 1⟩,
   ⟨69688, 69702, 1⟩, ⟨69744, 69744, 1⟩, ⟨69747, 69748, 1⟩, ⟨69759, 69761, 1⟩, ⟨69811, 69814, 1⟩,
   ⟨69817, 69818, 1⟩, ⟨69821, 69821, 1⟩, ⟨69826, 69837, 1⟩, ⟨69888, 69890, 1⟩, ⟨69927, 69931, 1⟩,
   ⟨69933, 69940, 1⟩, ⟨70003, 70003, 1⟩, ⟨70016, 70017, 1⟩, ⟨70070, 70078, 1⟩, ⟨70089, 70092, 1⟩,
   ⟨70095, 70095, 1⟩, ⟨70191, 70193, 1⟩, ⟨70196, 70196, 1⟩, ⟨70198, 70199, 1⟩, ⟨70206, 70206, 1⟩,
   ⟨70367, 70367, 1⟩, ⟨70371, 70378, 1⟩, ⟨70400, 70401, 1⟩, ⟨70459, 70460, 1⟩, ⟨70464, 70464, 1⟩,
   ⟨70502, 70516, 1⟩, ⟨70712, 70719, 1⟩, ⟨70722, 70724, 1⟩, ⟨70726, 70726, 1⟩, ⟨70750, 70750, 1⟩,
   ⟨70835, 70840, 1⟩, ⟨70842, 70842, 1⟩, ⟨70847, 70848, 1⟩, ⟨70850, 70851, 1⟩, ⟨71090, 71093, 1⟩,
   ⟨71100, 71101, 1⟩, ⟨71103, 71104, 1⟩, ⟨71132, 71133, 1⟩, ⟨71219, 71226, 1⟩, ⟨71229, 71229, 1⟩,
   ⟨71231, 71232, 1⟩, ⟨71339, 71339, 1⟩, ⟨71341, 71341, 1⟩, ⟨71344, 71349, 1⟩, ⟨71351, 71351, 1⟩,
   ⟨71453, 71455, 1⟩, ⟨71458, 71461, 1⟩, ⟨71463, 71467, 1⟩, ⟨71727, 71735, 1⟩, ⟨71737, 71738, 1⟩,
   ⟨71995, 71996, 1⟩, ⟨71998, 71998, 1⟩, ⟨72003, 72003, 1⟩, ⟨72148, 72155, 1⟩, ⟨72160, 72160, 1⟩,
   ⟨72193, 72202, 1⟩, ⟨72243, 72248, 1⟩, ⟨72251, 72254, 1⟩, ⟨72263, 72263, 1⟩, ⟨72273, 72278, 1⟩,
   ⟨72281, 72283, 1⟩, ⟨72330, 72342, 1⟩, ⟨72344, 72345, 1⟩, ⟨72752, 72765, 1⟩, ⟨72767, 72767, 1⟩,
   ⟨72850, 72871, 1⟩, ⟨72874, 72880, 1⟩, ⟨72882, 72883, 1⟩, ⟨72885, 72886, 1⟩, ⟨73009, 73029, 1⟩,
   ⟨73031, 73031, 1⟩, ⟨73104, 73105, 1⟩, ⟨73109, 73109, 1⟩, ⟨73111, 73111, 1⟩, ⟨73459, 73460, 1⟩,
   ⟨78896, 78904, 1⟩, ⟨92912, 92916, 1⟩, ⟨92976, 92982, 1⟩, ⟨94031, 94031, 1⟩, ⟨94095, 94098, 1⟩,
   ⟨94180, 94180, 1⟩, ⟨113821, 113822, 1⟩, ⟨113824, 113827, 1⟩, ⟨118528, 118598, 1⟩,
   ⟨119143, 119145, 1⟩, ⟨119155, 119170, 1⟩, ⟨119173, 119179, 1⟩, ⟨119210, 119213, 1⟩,
   ⟨119362, 119364, 1⟩, ⟨121344, 121398, 1⟩, ⟨121403, 121452, 1⟩, ⟨121461, 121461, 1⟩,
   ⟨121476, 121476, 1⟩, ⟨121499, 121519, 1⟩, ⟨122880, 122922, 1⟩, ⟨123184, 123190, 1⟩,
   ⟨123566, 123566, 1⟩, ⟨123628, 123631, 1⟩, ⟨125136, 125142, 1⟩, ⟨125252, 125258, 1⟩,
   ⟨917505, 917999, 1⟩]

def charColumns (c : Char) : Nat :=
  if c.toNat < 128 then (if ' ' ≤ c && c ≤ '~' then 1 else 0)
  else if inRuns zeroWidthRuns c.toNat then 0
  else if inRuns wideRuns c.toNat then 2
  else 1

def columns (s : List Char) : Nat := (s.map charColumns).foldr Nat.add 0

end Scaffold.Text
