import Scaffold.Text.CodeRun

/-! A text in double quotes for use inside a message: quotes and backslashes are escaped, and so is
    every character that would not be visible on its own. -/

namespace Scaffold.Text

/-- Characters from U+0080 on that show nothing: controls, formats, separators, unassigned. -/
def invisibleRuns : List CodeRun :=
  [⟨128, 160, 1⟩, ⟨173, 173, 1⟩, ⟨888, 889, 1⟩, ⟨896, 899, 1⟩, ⟨907, 909, 2⟩, ⟨930, 930, 1⟩,
   ⟨1328, 1328, 1⟩, ⟨1367, 1368, 1⟩, ⟨1419, 1420, 1⟩, ⟨1424, 1424, 1⟩, ⟨1480, 1487, 1⟩,
   ⟨1515, 1518, 1⟩, ⟨1525, 1541, 1⟩, ⟨1564, 1564, 1⟩, ⟨1757, 1757, 1⟩, ⟨1806, 1807, 1⟩,
   ⟨1867, 1868, 1⟩, ⟨1970, 1983, 1⟩, ⟨2043, 2044, 1⟩, ⟨2094, 2095, 1⟩, ⟨2111, 2111, 1⟩,
   ⟨2140, 2141, 1⟩, ⟨2143, 2143, 1⟩, ⟨2155, 2159, 1⟩, ⟨2192, 2198, 1⟩, ⟨2274, 2274, 1⟩,
   ⟨2436, 2436, 1⟩, ⟨2445, 2446, 1⟩, ⟨2449, 2450, 1⟩, ⟨2473, 2473, 1⟩, ⟨2481, 2483, 2⟩,
   ⟨2484, 2485, 1⟩, ⟨2490, 2491, 1⟩, ⟨2501, 2502, 1⟩, ⟨2505, 2506, 1⟩, ⟨2511, 2518, 1⟩,
   ⟨2520, 2523, 1⟩, ⟨2526, 2526, 1⟩, ⟨2532, 2533, 1⟩, ⟨2559, 2560, 1⟩, ⟨2564, 2564, 1⟩,
   ⟨2571, 2574, 1⟩, ⟨2577, 2578, 1⟩, ⟨2601, 2601, 1⟩, ⟨2609, 2609, 1⟩, ⟨2612, 2612, 1⟩,
   ⟨2615, 2615, 1⟩, ⟨2618, 2619, 1⟩, ⟨2621, 2621, 1⟩, ⟨2627, 2630, 1⟩, ⟨2633, 2634, 1⟩,
   ⟨2638, 2640, 1⟩, ⟨2642, 2648, 1⟩, ⟨2653, 2655, 2⟩, ⟨2656, 2661, 1⟩, ⟨2679, 2688, 1⟩,
   ⟨2692, 2692, 1⟩, ⟨2702, 2702, 1⟩, ⟨2706, 2706, 1⟩, ⟨2729, 2729, 1⟩, ⟨2737, 2737, 1⟩,
   ⟨2740, 2740, 1⟩, ⟨2746, 2747, 1⟩, ⟨2758, 2758, 1⟩, ⟨2762, 2762, 1⟩, ⟨2766, 2767, 1⟩,
   ⟨2769, 2783, 1⟩, ⟨2788, 2789, 1⟩, ⟨2802, 2808, 1⟩, ⟨2816, 2816, 1⟩, ⟨2820, 2820, 1⟩,
   ⟨2829, 2830, 1⟩, ⟨2833, 2834, 1⟩, ⟨2857, 2857, 1⟩, ⟨2865, 2865, 1⟩, ⟨2868, 2868, 1⟩,
   ⟨2874, 2875, 1⟩, ⟨2885, 2886, 1⟩, ⟨2889, 2890, 1⟩, ⟨2894, 2900, 1⟩, ⟨2904, 2907, 1⟩,
   ⟨2910, 2910, 1⟩, ⟨2916, 2917, 1⟩, ⟨2936, 2945, 1⟩, ⟨2948, 2948, 1⟩, ⟨2955, 2957, 1⟩,
   ⟨2961, 2961, 1⟩, ⟨2966, 2968, 1⟩, ⟨2971, 2973, 2⟩, ⟨2976, 2978, 1⟩, ⟨2981, 2983, 1⟩,
   ⟨2987, 2989, 1⟩, ⟨3002, 3005, 1⟩, ⟨3011, 3013, 1⟩, ⟨3017, 3017, 1⟩, ⟨3022, 3023, 1⟩,
   ⟨3025, 3030, 1⟩, ⟨3032, 3045, 1⟩, ⟨3067, 3071, 1⟩, ⟨3085, 3085, 1⟩, ⟨3089, 3089, 1⟩,
   ⟨3113, 3113, 1⟩, ⟨3130, 3131, 1⟩, ⟨3141, 3141, 1⟩, ⟨3145, 3145, 1⟩, ⟨3150, 3156, 1⟩,
   ⟨3159, 3159, 1⟩, ⟨3163, 3163, 1⟩, ⟨3166, 3167, 1⟩, ⟨3172, 3173, 1⟩, ⟨3184, 3190, 1⟩,
   ⟨3213, 3213, 1⟩, ⟨3217, 3217, 1⟩, ⟨3241, 3241, 1⟩, ⟨3252, 3252, 1⟩, ⟨3258, 3259, 1⟩,
   ⟨3269, 3269, 1⟩, ⟨3273, 3273, 1⟩, ⟨3278, 3284, 1⟩, ⟨3287, 3291, 1⟩, ⟨3295, 3295, 1⟩,
   ⟨3300, 3301, 1⟩, ⟨3312, 3312, 1⟩, ⟨3316, 3327, 1⟩, ⟨3341, 3341, 1⟩, ⟨3345, 3345, 1⟩,
   ⟨3397, 3397, 1⟩, ⟨3401, 3401, 1⟩, ⟨3408, 3411, 1⟩, ⟨3428, 3429, 1⟩, ⟨3456, 3456, 1⟩,
   ⟨3460, 3460, 1⟩, ⟨3479, 3481, 1⟩, ⟨3506, 3506, 1⟩, ⟨3516, 3518, 2⟩, ⟨3519, 3519, 1⟩,
   ⟨3527, 3529, 1⟩, ⟨3531, 3534, 1⟩, ⟨3541, 3543, 2⟩, ⟨3552, 3557, 1⟩, ⟨3568, 3569, 1⟩,
   ⟨3573, 3584, 1⟩, ⟨3643, 3646, 1⟩, ⟨3676, 3712, 1⟩, ⟨3715, 3717, 2⟩, ⟨3723, 3723, 1⟩,
   ⟨3748, 3750, 2⟩, ⟨3774, 3775, 1⟩, ⟨3781, 3783, 2⟩, ⟨3791, 3791, 1⟩, ⟨3802, 3803, 1⟩,
   ⟨3808, 3839, 1⟩, ⟨3912, 3912, 1⟩, ⟨3949, 3952, 1⟩, ⟨3992, 3992, 1⟩, ⟨4029, 4029, 1⟩,
   ⟨4045, 4045, 1⟩, ⟨4059, 4095, 1⟩, ⟨4294, 4296, 2⟩, ⟨4297, 4300, 1⟩, ⟨4302, 4303, 1⟩,
   ⟨4681, 4681, 1⟩, ⟨4686, 4687, 1⟩, ⟨4695, 4697, 2⟩, ⟨4702, 4703, 1⟩, ⟨4745, 4745, 1⟩,
   ⟨4750, 4751, 1⟩, ⟨4785, 4785, 1⟩, ⟨4790, 4791, 1⟩, ⟨4799, 4801, 2⟩, ⟨4806, 4807, 1⟩,
   ⟨4823, 4823, 1⟩, ⟨4881, 4881, 1⟩, ⟨4886, 4887, 1⟩, ⟨4955, 4956, 1⟩, ⟨4989, 4991, 1⟩,
   ⟨5018, 5023, 1⟩, ⟨5110, 5111, 1⟩, ⟨5118, 5119, 1⟩, ⟨5760, 5760, 1⟩, ⟨5789, 5791, 1⟩,
   ⟨5881, 5887, 1⟩, ⟨5910, 5918, 1⟩, ⟨5943, 5951, 1⟩, ⟨5972, 5983, 1⟩, ⟨5997, 5997, 1⟩,
   ⟨6001, 6001, 1⟩, ⟨6004, 6015, 1⟩, ⟨6110, 6111, 1⟩, ⟨6122, 6127, 1⟩, ⟨6138, 6143, 1⟩,
   ⟨6158, 6158, 1⟩, ⟨6170, 6175, 1⟩, ⟨6265, 6271, 1⟩, ⟨6315, 6319, 1⟩, ⟨6390, 6399, 1⟩,
   ⟨6431, 6431, 1⟩, ⟨6444, 6447, 1⟩, ⟨6460, 6463, 1⟩, ⟨6465, 6467, 1⟩, ⟨6510, 6511, 1⟩,
   ⟨6517, 6527, 1⟩, ⟨6572, 6575, 1⟩, ⟨6602, 6607, 1⟩, ⟨6619, 6621, 1⟩, ⟨6684, 6685, 1⟩,
   ⟨6751, 6751, 1⟩, ⟨6781, 6782, 1⟩, ⟨6794, 6799, 1⟩, ⟨6810, 6815, 1⟩, ⟨6830, 6831, 1⟩,
   ⟨6878, 6879, 1⟩, ⟨6892, 6911, 1⟩, ⟨6989, 6989, 1⟩, ⟨7156, 7163, 1⟩, ⟨7224, 7226, 1⟩,
   ⟨7242, 7244, 1⟩, ⟨7307, 7311, 1⟩, ⟨7355, 7356, 1⟩, ⟨7368, 7375, 1⟩, ⟨7419, 7423, 1⟩,
   ⟨7958, 7959, 1⟩, ⟨7966, 7967, 1⟩, ⟨8006, 8007, 1⟩, ⟨8014, 8015, 1⟩, ⟨8024, 8030, 2⟩,
   ⟨8062, 8063, 1⟩, ⟨8117, 8117, 1⟩, ⟨8133, 8133, 1⟩, ⟨8148, 8149, 1⟩, ⟨8156, 8156, 1⟩,
   ⟨8176, 8177, 1⟩, ⟨8181, 8181, 1⟩, ⟨8191, 8207, 1⟩, ⟨8232, 8239, 1⟩, ⟨8287, 8303, 1⟩,
   ⟨8306, 8307, 1⟩, ⟨8335, 8335, 1⟩, ⟨8349, 8351, 1⟩, ⟨8386, 8399, 1⟩, ⟨8433, 8447, 1⟩,
   ⟨8588, 8591, 1⟩, ⟨9258, 9279, 1⟩, ⟨9291, 9311, 1⟩, ⟨11124, 11125, 1⟩, ⟨11508, 11512, 1⟩,
   ⟨11558, 11560, 2⟩, ⟨11561, 11564, 1⟩, ⟨11566, 11567, 1⟩, ⟨11624, 11630, 1⟩, ⟨11633, 11646, 1⟩,
   ⟨11671, 11679, 1⟩, ⟨11687, 11687, 1⟩, ⟨11695, 11695, 1⟩, ⟨11703, 11703, 1⟩, ⟨11711, 11711, 1⟩,
   ⟨11719, 11719, 1⟩, ⟨11727, 11727, 1⟩, ⟨11735, 11735, 1⟩, ⟨11743, 11743, 1⟩, ⟨11870, 11903, 1⟩,
   ⟨11930, 11930, 1⟩, ⟨12020, 12031, 1⟩, ⟨12246, 12271, 1⟩, ⟨12288, 12288, 1⟩, ⟨12352, 12352, 1⟩,
   ⟨12439, 12440, 1⟩, ⟨12544, 12548, 1⟩, ⟨12592, 12592, 1⟩, ⟨12687, 12687, 1⟩, ⟨12774, 12782, 1⟩,
   ⟨12831, 12831, 1⟩, ⟨42125, 42127, 1⟩, ⟨42183, 42191, 1⟩, ⟨42540, 42559, 1⟩, ⟨42744, 42751, 1⟩,
   ⟨42973, 42992, 1⟩, ⟨43053, 43055, 1⟩, ⟨43066, 43071, 1⟩, ⟨43128, 43135, 1⟩, ⟨43206, 43213, 1⟩,
   ⟨43226, 43231, 1⟩, ⟨43348, 43358, 1⟩, ⟨43389, 43391, 1⟩, ⟨43470, 43470, 1⟩, ⟨43482, 43485, 1⟩,
   ⟨43519, 43519, 1⟩, ⟨43575, 43583, 1⟩, ⟨43598, 43599, 1⟩, ⟨43610, 43611, 1⟩, ⟨43715, 43738, 1⟩,
   ⟨43767, 43776, 1⟩, ⟨43783, 43784, 1⟩, ⟨43791, 43792, 1⟩, ⟨43799, 43807, 1⟩, ⟨43815, 43815, 1⟩,
   ⟨43823, 43823, 1⟩, ⟨43884, 43887, 1⟩, ⟨44014, 44015, 1⟩, ⟨44026, 44031, 1⟩, ⟨55204, 55215, 1⟩,
   ⟨55239, 55242, 1⟩, ⟨55292, 55295, 1⟩, ⟨57344, 63743, 1⟩, ⟨64110, 64111, 1⟩, ⟨64218, 64255, 1⟩,
   ⟨64263, 64274, 1⟩, ⟨64280, 64284, 1⟩, ⟨64311, 64311, 1⟩, ⟨64317, 64319, 2⟩, ⟨64322, 64322, 1⟩,
   ⟨64325, 64325, 1⟩, ⟨64976, 65007, 1⟩, ⟨65050, 65055, 1⟩, ⟨65107, 65107, 1⟩, ⟨65127, 65127, 1⟩,
   ⟨65132, 65135, 1⟩, ⟨65141, 65141, 1⟩, ⟨65277, 65280, 1⟩, ⟨65471, 65473, 1⟩, ⟨65480, 65481, 1⟩,
   ⟨65488, 65489, 1⟩, ⟨65496, 65497, 1⟩, ⟨65501, 65503, 1⟩, ⟨65511, 65511, 1⟩, ⟨65519, 65531, 1⟩,
   ⟨65534, 65535, 1⟩, ⟨65548, 65548, 1⟩, ⟨65575, 65575, 1⟩, ⟨65595, 65595, 1⟩, ⟨65598, 65598, 1⟩,
   ⟨65614, 65615, 1⟩, ⟨65630, 65663, 1⟩, ⟨65787, 65791, 1⟩, ⟨65795, 65798, 1⟩, ⟨65844, 65846, 1⟩,
   ⟨65935, 65935, 1⟩, ⟨65949, 65951, 1⟩, ⟨65953, 65999, 1⟩, ⟨66046, 66175, 1⟩, ⟨66205, 66207, 1⟩,
   ⟨66257, 66271, 1⟩, ⟨66300, 66303, 1⟩, ⟨66340, 66348, 1⟩, ⟨66379, 66383, 1⟩, ⟨66427, 66431, 1⟩,
   ⟨66462, 66462, 1⟩, ⟨66500, 66503, 1⟩, ⟨66518, 66559, 1⟩, ⟨66718, 66719, 1⟩, ⟨66730, 66735, 1⟩,
   ⟨66772, 66775, 1⟩, ⟨66812, 66815, 1⟩, ⟨66856, 66863, 1⟩, ⟨66916, 66926, 1⟩, ⟨66939, 66939, 1⟩,
   ⟨66955, 66955, 1⟩, ⟨66963, 66963, 1⟩, ⟨66966, 66966, 1⟩, ⟨66978, 66978, 1⟩, ⟨66994, 66994, 1⟩,
   ⟨67002, 67002, 1⟩, ⟨67005, 67007, 1⟩, ⟨67060, 67071, 1⟩, ⟨67383, 67391, 1⟩, ⟨67414, 67423, 1⟩,
   ⟨67432, 67455, 1⟩, ⟨67462, 67462, 1⟩, ⟨67505, 67505, 1⟩, ⟨67515, 67583, 1⟩, ⟨67590, 67591, 1⟩,
   ⟨67593, 67593, 1⟩, ⟨67638, 67638, 1⟩, ⟨67641, 67643, 1⟩, ⟨67645, 67646, 1⟩, ⟨67670, 67670, 1⟩,
   ⟨67743, 67750, 1⟩, ⟨67760, 67807, 1⟩, ⟨67827, 67827, 1⟩, ⟨67830, 67834, 1⟩, ⟨67868, 67870, 1⟩,
   ⟨67898, 67902, 1⟩, ⟨67930, 67967, 1⟩, ⟨68024, 68027, 1⟩, ⟨68048, 68049, 1⟩, ⟨68100, 68100, 1⟩,
   ⟨68103, 68107, 1⟩, ⟨68116, 68116, 1⟩, ⟨68120, 68120, 1⟩, ⟨68150, 68151, 1⟩, ⟨68155, 68158, 1⟩,
   ⟨68169, 68175, 1⟩, ⟨68185, 68191, 1⟩, ⟨68256, 68287, 1⟩, ⟨68327, 68330, 1⟩, ⟨68343, 68351, 1⟩,
   ⟨68406, 68408, 1⟩, ⟨68438, 68439, 1⟩, ⟨68467, 68471, 1⟩, ⟨68498, 68504, 1⟩, ⟨68509, 68520, 1⟩,
   ⟨68528, 68607, 1⟩, ⟨68681, 68735, 1⟩, ⟨68787, 68799, 1⟩, ⟨68851, 68857, 1⟩, ⟨68904, 68911, 1⟩,
   ⟨68922, 68927, 1⟩, ⟨68966, 68968, 1⟩, ⟨68998, 69005, 1⟩, ⟨69008, 69215, 1⟩, ⟨69247, 69247, 1⟩,
   ⟨69290, 69290, 1⟩, ⟨69294, 69295, 1⟩, ⟨69298, 69313, 1⟩, ⟨69320, 69327, 1⟩, ⟨69337, 69369, 1⟩,
   ⟨69416, 69423, 1⟩, ⟨69466, 69487, 1⟩, ⟨69514, 69551, 1⟩, ⟨69580, 69599, 1⟩, ⟨69623, 69631, 1⟩,
   ⟨69710, 69713, 1⟩, ⟨69750, 69758, 1⟩, ⟨69821, 69821, 1⟩, ⟨69827, 69839, 1⟩, ⟨69865, 69871, 1⟩,
   ⟨69882, 69887, 1⟩, ⟨69941, 69941, 1⟩, ⟨69960, 69967, 1⟩, ⟨70007, 70015, 1⟩, ⟨70112, 70112, 1⟩,
   ⟨70133, 70143, 1⟩, ⟨70162, 70162, 1⟩, ⟨70210, 70271, 1⟩, ⟨70279, 70281, 2⟩, ⟨70286, 70286, 1⟩,
   ⟨70302, 70302, 1⟩, ⟨70314, 70319, 1⟩, ⟨70379, 70383, 1⟩, ⟨70394, 70399, 1⟩, ⟨70404, 70404, 1⟩,
   ⟨70413, 70414, 1⟩, ⟨70417, 70418, 1⟩, ⟨70441, 70441, 1⟩, ⟨70449, 70449, 1⟩, ⟨70452, 70452, 1⟩,
   ⟨70458, 70458, 1⟩, ⟨70469, 70470, 1⟩, ⟨70473, 70474, 1⟩, ⟨70478, 70479, 1⟩, ⟨70481, 70486, 1⟩,
   ⟨70488, 70492, 1⟩, ⟨70500, 70501, 1⟩, ⟨70509, 70511, 1⟩, ⟨70517, 70527, 1⟩, ⟨70538, 70540, 2⟩,
   ⟨70541, 70543, 2⟩, ⟨70582, 70582, 1⟩, ⟨70593, 70595, 2⟩, ⟨70596, 70598, 2⟩, ⟨70603, 70603, 1⟩,
   ⟨70614, 70614, 1⟩, ⟨70617, 70624, 1⟩, ⟨70627, 70655, 1⟩, ⟨70748, 70748, 1⟩, ⟨70754, 70783, 1⟩,
   ⟨70856, 70863, 1⟩, ⟨70874, 71039, 1⟩, ⟨71094, 71095, 1⟩, ⟨71134, 71167, 1⟩, ⟨71237, 71247, 1⟩,
   ⟨71258, 71263, 1⟩, ⟨71277, 71295, 1⟩, ⟨71354, 71359, 1⟩, ⟨71370, 71375, 1⟩, ⟨71396, 71423, 1⟩,
   ⟨71451, 71452, 1⟩, ⟨71468, 71471, 1⟩, ⟨71495, 71679, 1⟩, ⟨71740, 71839, 1⟩, ⟨71923, 71934, 1⟩,
   ⟨71943, 71944, 1⟩, ⟨71946, 71947, 1⟩, ⟨71956, 71956, 1⟩, ⟨71959, 71959, 1⟩, ⟨71990, 71990, 1⟩,
   ⟨71993, 71994, 1⟩, ⟨72007, 72015, 1⟩, ⟨72026, 72095, 1⟩, ⟨72104, 72105, 1⟩, ⟨72152, 72153, 1⟩,
   ⟨72165, 72191, 1⟩, ⟨72264, 72271, 1⟩, ⟨72355, 72367, 1⟩, ⟨72441, 72447, 1⟩, ⟨72458, 72543, 1⟩,
   ⟨72552, 72639, 1⟩, ⟨72674, 72687, 1⟩, ⟨72698, 72703, 1⟩, ⟨72713, 72713, 1⟩, ⟨72759, 72759, 1⟩,
   ⟨72774, 72783, 1⟩, ⟨72813, 72815, 1⟩, ⟨72848, 72849, 1⟩, ⟨72872, 72872, 1⟩, ⟨72887, 72959, 1⟩,
   ⟨72967, 72967, 1⟩, ⟨72970, 72970, 1⟩, ⟨73015, 73017, 1⟩, ⟨73019, 73019, 1⟩, ⟨73022, 73022, 1⟩,
   ⟨73032, 73039, 1⟩, ⟨73050, 73055, 1⟩, ⟨73062, 73062, 1⟩, ⟨73065, 73065, 1⟩, ⟨73103, 73103, 1⟩,
   ⟨73106, 73106, 1⟩, ⟨73113, 73119, 1⟩, ⟨73130, 73135, 1⟩, ⟨73180, 73183, 1⟩, ⟨73194, 73439, 1⟩,
   ⟨73465, 73471, 1⟩, ⟨73489, 73489, 1⟩, ⟨73531, 73533, 1⟩, ⟨73563, 73647, 1⟩, ⟨73649, 73663, 1⟩,
   ⟨73714, 73726, 1⟩, ⟨74650, 74751, 1⟩, ⟨74863, 74863, 1⟩, ⟨74869, 74879, 1⟩, ⟨75076, 77711, 1⟩,
   ⟨77811, 77823, 1⟩, ⟨78896, 78911, 1⟩, ⟨78934, 78943, 1⟩, ⟨82939, 82943, 1⟩, ⟨83527, 90367, 1⟩,
   ⟨90426, 92159, 1⟩, ⟨92729, 92735, 1⟩, ⟨92767, 92767, 1⟩, ⟨92778, 92781, 1⟩, ⟨92863, 92863, 1⟩,
   ⟨92874, 92879, 1⟩, ⟨92910, 92911, 1⟩, ⟨92918, 92927, 1⟩, ⟨92998, 93007, 1⟩, ⟨93018, 93018, 1⟩,
   ⟨93026, 93026, 1⟩, ⟨93048, 93052, 1⟩, ⟨93072, 93503, 1⟩, ⟨93562, 93759, 1⟩, ⟨93851, 93855, 1⟩,
   ⟨93881, 93882, 1⟩, ⟨93908, 93951, 1⟩, ⟨94027, 94030, 1⟩, ⟨94088, 94094, 1⟩, ⟨94112, 94175, 1⟩,
   ⟨94181, 94191, 1⟩, ⟨94199, 94207, 1⟩, ⟨101590, 101630, 1⟩, ⟨101663, 101759, 1⟩,
   ⟨101875, 110575, 1⟩, ⟨110580, 110580, 1⟩, ⟨110588, 110588, 1⟩, ⟨110591, 110591, 1⟩,
   ⟨110883, 110897, 1⟩, ⟨110899, 110927, 1⟩, ⟨110931, 110932, 1⟩, ⟨110934, 110947, 1⟩,
   ⟨110952, 110959, 1⟩, ⟨111356, 113663, 1⟩, ⟨113771, 113775, 1⟩, ⟨113789, 113791, 1⟩,
   ⟨113801, 113807, 1⟩, ⟨113818, 113819, 1⟩, ⟨113824, 117759, 1⟩, ⟨118013, 118015, 1⟩,
   ⟨118452, 118457, 1⟩, ⟨118481, 118495, 1⟩, ⟨118513, 118527, 1⟩, ⟨118574, 118575, 1⟩,
   ⟨118599, 118607, 1⟩, ⟨118724, 118783, 1⟩, ⟨119030, 119039, 1⟩, ⟨119079, 119080, 1⟩,
   ⟨119155, 119162, 1⟩, ⟨119275, 119295, 1⟩, ⟨119366, 119487, 1⟩, ⟨119508, 119519, 1⟩,
   ⟨119540, 119551, 1⟩, ⟨119639, 119647, 1⟩, ⟨119673, 119807, 1⟩, ⟨119893, 119893, 1⟩,
   ⟨119965, 119965, 1⟩, ⟨119968, 119969, 1⟩, ⟨119971, 119972, 1⟩, ⟨119975, 119976, 1⟩,
   ⟨119981, 119981, 1⟩, ⟨119994, 119996, 2⟩, ⟨120004, 120004, 1⟩, ⟨120070, 120070, 1⟩,
   ⟨120075, 120076, 1⟩, ⟨120085, 120085, 1⟩, ⟨120093, 120093, 1⟩, ⟨120122, 120122, 1⟩,
   ⟨120127, 120127, 1⟩, ⟨120133, 120135, 2⟩, ⟨120136, 120137, 1⟩, ⟨120145, 120145, 1⟩,
   ⟨120486, 120487, 1⟩, ⟨120780, 120781, 1⟩, ⟨121484, 121498, 1⟩, ⟨121504, 121504, 1⟩,
   ⟨121520, 122623, 1⟩, ⟨122655, 122660, 1⟩, ⟨122667, 122879, 1⟩, ⟨122887, 122887, 1⟩,
   ⟨122905, 122906, 1⟩, ⟨122914, 122914, 1⟩, ⟨122917, 122917, 1⟩, ⟨122923, 122927, 1⟩,
   ⟨122990, 123022, 1⟩, ⟨123024, 123135, 1⟩, ⟨123181, 123183, 1⟩, ⟨123198, 123199, 1⟩,
   ⟨123210, 123213, 1⟩, ⟨123216, 123535, 1⟩, ⟨123567, 123583, 1⟩, ⟨123642, 123646, 1⟩,
   ⟨123648, 124111, 1⟩, ⟨124154, 124367, 1⟩, ⟨124411, 124414, 1⟩, ⟨124416, 124607, 1⟩,
   ⟨124639, 124639, 1⟩, ⟨124662, 124669, 1⟩, ⟨124672, 124895, 1⟩, ⟨124903, 124903, 1⟩,
   ⟨124908, 124908, 1⟩, ⟨124911, 124911, 1⟩, ⟨124927, 124927, 1⟩, ⟨125125, 125126, 1⟩,
   ⟨125143, 125183, 1⟩, ⟨125260, 125263, 1⟩, ⟨125274, 125277, 1⟩, ⟨125280, 126064, 1⟩,
   ⟨126133, 126208, 1⟩, ⟨126270, 126463, 1⟩, ⟨126468, 126468, 1⟩, ⟨126496, 126496, 1⟩,
   ⟨126499, 126501, 2⟩, ⟨126502, 126504, 2⟩, ⟨126515, 126515, 1⟩, ⟨126520, 126524, 2⟩,
   ⟨126525, 126529, 1⟩, ⟨126531, 126534, 1⟩, ⟨126536, 126540, 2⟩, ⟨126544, 126544, 1⟩,
   ⟨126547, 126549, 2⟩, ⟨126550, 126560, 2⟩, ⟨126563, 126565, 2⟩, ⟨126566, 126566, 1⟩,
   ⟨126571, 126571, 1⟩, ⟨126579, 126579, 1⟩, ⟨126584, 126584, 1⟩, ⟨126589, 126591, 2⟩,
   ⟨126602, 126602, 1⟩, ⟨126620, 126624, 1⟩, ⟨126628, 126628, 1⟩, ⟨126634, 126634, 1⟩,
   ⟨126652, 126703, 1⟩, ⟨126706, 126975, 1⟩, ⟨127020, 127023, 1⟩, ⟨127124, 127135, 1⟩,
   ⟨127151, 127152, 1⟩, ⟨127168, 127168, 1⟩, ⟨127184, 127184, 1⟩, ⟨127222, 127231, 1⟩,
   ⟨127406, 127461, 1⟩, ⟨127491, 127503, 1⟩, ⟨127548, 127551, 1⟩, ⟨127561, 127567, 1⟩,
   ⟨127570, 127583, 1⟩, ⟨127590, 127743, 1⟩, ⟨128729, 128731, 1⟩, ⟨128749, 128751, 1⟩,
   ⟨128765, 128767, 1⟩, ⟨128986, 128991, 1⟩, ⟨129004, 129007, 1⟩, ⟨129009, 129023, 1⟩,
   ⟨129036, 129039, 1⟩, ⟨129096, 129103, 1⟩, ⟨129114, 129119, 1⟩, ⟨129160, 129167, 1⟩,
   ⟨129198, 129199, 1⟩, ⟨129212, 129215, 1⟩, ⟨129218, 129231, 1⟩, ⟨129241, 129279, 1⟩,
   ⟨129624, 129631, 1⟩, ⟨129646, 129647, 1⟩, ⟨129661, 129663, 1⟩, ⟨129675, 129677, 1⟩,
   ⟨129735, 129737, 2⟩, ⟨129738, 129740, 1⟩, ⟨129757, 129758, 1⟩, ⟨129771, 129774, 1⟩,
   ⟨129785, 129791, 1⟩, ⟨129939, 129939, 1⟩, ⟨130043, 131071, 1⟩, ⟨173792, 173823, 1⟩,
   ⟨178206, 178207, 1⟩, ⟨183982, 183983, 1⟩, ⟨191457, 191471, 1⟩, ⟨192094, 194559, 1⟩,
   ⟨195102, 196607, 1⟩, ⟨201547, 201551, 1⟩, ⟨210042, 917759, 1⟩, ⟨918000, 1114111, 1⟩]

/-- Characters that attach to the one before them. -/
def extendingRuns : List CodeRun :=
  [⟨768, 879, 1⟩, ⟨1155, 1161, 1⟩, ⟨1425, 1469, 1⟩, ⟨1471, 1473, 2⟩, ⟨1474, 1476, 2⟩,
   ⟨1477, 1479, 2⟩, ⟨1552, 1562, 1⟩, ⟨1611, 1631, 1⟩, ⟨1648, 1648, 1⟩, ⟨1750, 1756, 1⟩,
   ⟨1759, 1764, 1⟩, ⟨1767, 1768, 1⟩, ⟨1770, 1773, 1⟩, ⟨1809, 1809, 1⟩, ⟨1840, 1866, 1⟩,
   ⟨1958, 1968, 1⟩, ⟨2027, 2035, 1⟩, ⟨2045, 2045, 1⟩, ⟨2070, 2073, 1⟩, ⟨2075, 2083, 1⟩,
   ⟨2085, 2087, 1⟩, ⟨2089, 2093, 1⟩, ⟨2137, 2139, 1⟩, ⟨2199, 2207, 1⟩, ⟨2250, 2273, 1⟩,
   ⟨2275, 2306, 1⟩, ⟨2362, 2364, 2⟩, ⟨2369, 2376, 1⟩, ⟨2381, 2381, 1⟩, ⟨2385, 2391, 1⟩,
   ⟨2402, 2403, 1⟩, ⟨2433, 2433, 1⟩, ⟨2492, 2494, 2⟩, ⟨2497, 2500, 1⟩, ⟨2509, 2509, 1⟩,
   ⟨2519, 2519, 1⟩, ⟨2530, 2531, 1⟩, ⟨2558, 2558, 1⟩, ⟨2561, 2562, 1⟩, ⟨2620, 2620, 1⟩,
   ⟨2625, 2626, 1⟩, ⟨2631, 2632, 1⟩, ⟨2635, 2637, 1⟩, ⟨2641, 2641, 1⟩, ⟨2672, 2673, 1⟩,
   ⟨2677, 2677, 1⟩, ⟨2689, 2690, 1⟩, ⟨2748, 2748, 1⟩, ⟨2753, 2757, 1⟩, ⟨2759, 2760, 1⟩,
   ⟨2765, 2765, 1⟩, ⟨2786, 2787, 1⟩, ⟨2810, 2815, 1⟩, ⟨2817, 2817, 1⟩, ⟨2876, 2878, 2⟩,
   ⟨2879, 2881, 2⟩, ⟨2882, 2884, 1⟩, ⟨2893, 2893, 1⟩, ⟨2901, 2903, 1⟩, ⟨2914, 2915, 1⟩,
   ⟨2946, 2946, 1⟩, ⟨3006, 3008, 2⟩, ⟨3021, 3021, 1⟩, ⟨3031, 3031, 1⟩, ⟨3072, 3072, 1⟩,
   ⟨3076, 3076, 1⟩, ⟨3132, 3134, 2⟩, ⟨3135, 3136, 1⟩, ⟨3142, 3144, 1⟩, ⟨3146, 3149, 1⟩,
   ⟨3157, 3158, 1⟩, ⟨3170, 3171, 1⟩, ⟨3201, 3201, 1⟩, ⟨3260, 3260, 1⟩, ⟨3263, 3264, 1⟩,
   ⟨3266, 3266, 1⟩, ⟨3270, 3272, 1⟩, ⟨3274, 3277, 1⟩, ⟨3285, 3286, 1⟩, ⟨3298, 3299, 1⟩,
   ⟨3328, 3329, 1⟩, ⟨3387, 3388, 1⟩, ⟨3390, 3390, 1⟩, ⟨3393, 3396, 1⟩, ⟨3405, 3405, 1⟩,
   ⟨3415, 3415, 1⟩, ⟨3426, 3427, 1⟩, ⟨3457, 3457, 1⟩, ⟨3530, 3530, 1⟩, ⟨3535, 3535, 1⟩,
   ⟨3538, 3540, 1⟩, ⟨3542, 3542, 1⟩, ⟨3551, 3551, 1⟩, ⟨3633, 3633, 1⟩, ⟨3636, 3642, 1⟩,
   ⟨3655, 3662, 1⟩, ⟨3761, 3761, 1⟩, ⟨3764, 3772, 1⟩, ⟨3784, 3790, 1⟩, ⟨3864, 3865, 1⟩,
   ⟨3893, 3897, 2⟩, ⟨3953, 3966, 1⟩, ⟨3968, 3972, 1⟩, ⟨3974, 3975, 1⟩, ⟨3981, 3991, 1⟩,
   ⟨3993, 4028, 1⟩, ⟨4038, 4038, 1⟩, ⟨4141, 4144, 1⟩, ⟨4146, 4151, 1⟩, ⟨4153, 4154, 1⟩,
   ⟨4157, 4158, 1⟩, ⟨4184, 4185, 1⟩, ⟨4190, 4192, 1⟩, ⟨4209, 4212, 1⟩, ⟨4226, 4226, 1⟩,
   ⟨4229, 4230, 1⟩, ⟨4237, 4237, 1⟩, ⟨4253, 4253, 1⟩, ⟨4957, 4959, 1⟩, ⟨5906, 5909, 1⟩,
   ⟨5938, 5940, 1⟩, ⟨5970, 5971, 1⟩, ⟨6002, 6003, 1⟩, ⟨6068, 6069, 1⟩, ⟨6071, 6077, 1⟩,
   ⟨6086, 6086, 1⟩, ⟨6089, 6099, 1⟩, ⟨6109, 6109, 1⟩, ⟨6155, 6157, 1⟩, ⟨6159, 6159, 1⟩,
   ⟨6277, 6278, 1⟩, ⟨6313, 6313, 1⟩, ⟨6432, 6434, 1⟩, ⟨6439, 6440, 1⟩, ⟨6450, 6450, 1⟩,
   ⟨6457, 6459, 1⟩, ⟨6679, 6680, 1⟩, ⟨6683, 6683, 1⟩, ⟨6742, 6744, 2⟩, ⟨6745, 6750, 1⟩,
   ⟨6752, 6754, 2⟩, ⟨6757, 6764, 1⟩, ⟨6771, 6780, 1⟩, ⟨6783, 6783, 1⟩, ⟨6832, 6877, 1⟩,
   ⟨6880, 6891, 1⟩, ⟨6912, 6915, 1⟩, ⟨6964, 6973, 1⟩, ⟨6978, 6980, 1⟩, ⟨7019, 7027, 1⟩,
   ⟨7040, 7041, 1⟩, ⟨7074, 7077, 1⟩, ⟨7080, 7085, 1⟩, ⟨7142, 7144, 2⟩, ⟨7145, 7145, 1⟩,
   ⟨7149, 7151, 2⟩, ⟨7152, 7155, 1⟩, ⟨7212, 7219, 1⟩, ⟨7222, 7223, 1⟩, ⟨7376, 7378, 1⟩,
   ⟨7380, 7392, 1⟩, ⟨7394, 7400, 1⟩, ⟨7405, 7405, 1⟩, ⟨7412, 7412, 1⟩, ⟨7416, 7417, 1⟩,
   ⟨7616, 7679, 1⟩, ⟨8204, 8204, 1⟩, ⟨8400, 8432, 1⟩, ⟨11503, 11505, 1⟩, ⟨11647, 11647, 1⟩,
   ⟨11744, 11775, 1⟩, ⟨12330, 12335, 1⟩, ⟨12441, 12442, 1⟩, ⟨42607, 42610, 1⟩, ⟨42612, 42621, 1⟩,
   ⟨42654, 42655, 1⟩, ⟨42736, 42737, 1⟩, ⟨43010, 43010, 1⟩, ⟨43014, 43014, 1⟩, ⟨43019, 43019, 1⟩,
   ⟨43045, 43046, 1⟩, ⟨43052, 43052, 1⟩, ⟨43204, 43205, 1⟩, ⟨43232, 43249, 1⟩, ⟨43263, 43263, 1⟩,
   ⟨43302, 43309, 1⟩, ⟨43335, 43345, 1⟩, ⟨43347, 43347, 1⟩, ⟨43392, 43394, 1⟩, ⟨43443, 43443, 1⟩,
   ⟨43446, 43449, 1⟩, ⟨43452, 43453, 1⟩, ⟨43456, 43456, 1⟩, ⟨43493, 43493, 1⟩, ⟨43561, 43566, 1⟩,
   ⟨43569, 43570, 1⟩, ⟨43573, 43574, 1⟩, ⟨43587, 43587, 1⟩, ⟨43596, 43596, 1⟩, ⟨43644, 43644, 1⟩,
   ⟨43696, 43698, 2⟩, ⟨43699, 43700, 1⟩, ⟨43703, 43704, 1⟩, ⟨43710, 43711, 1⟩, ⟨43713, 43713, 1⟩,
   ⟨43756, 43757, 1⟩, ⟨43766, 43766, 1⟩, ⟨44005, 44005, 1⟩, ⟨44008, 44008, 1⟩, ⟨44013, 44013, 1⟩,
   ⟨64286, 64286, 1⟩, ⟨65024, 65039, 1⟩, ⟨65056, 65071, 1⟩, ⟨65438, 65439, 1⟩, ⟨66045, 66045, 1⟩,
   ⟨66272, 66272, 1⟩, ⟨66422, 66426, 1⟩, ⟨68097, 68099, 1⟩, ⟨68101, 68102, 1⟩, ⟨68108, 68111, 1⟩,
   ⟨68152, 68154, 1⟩, ⟨68159, 68159, 1⟩, ⟨68325, 68326, 1⟩, ⟨68900, 68903, 1⟩, ⟨68969, 68973, 1⟩,
   ⟨69291, 69292, 1⟩, ⟨69370, 69375, 1⟩, ⟨69446, 69456, 1⟩, ⟨69506, 69509, 1⟩, ⟨69633, 69633, 1⟩,
   ⟨69688, 69702, 1⟩, ⟨69744, 69744, 1⟩, ⟨69747, 69748, 1⟩, ⟨69759, 69761, 1⟩, ⟨69811, 69814, 1⟩,
   ⟨69817, 69818, 1⟩, ⟨69826, 69826, 1⟩, ⟨69888, 69890, 1⟩, ⟨69927, 69931, 1⟩, ⟨69933, 69940, 1⟩,
   ⟨70003, 70003, 1⟩, ⟨70016, 70017, 1⟩, ⟨70070, 70078, 1⟩, ⟨70080, 70080, 1⟩, ⟨70089, 70092, 1⟩,
   ⟨70095, 70095, 1⟩, ⟨70191, 70193, 1⟩, ⟨70196, 70199, 1⟩, ⟨70206, 70206, 1⟩, ⟨70209, 70209, 1⟩,
   ⟨70367, 70367, 1⟩, ⟨70371, 70378, 1⟩, ⟨70400, 70401, 1⟩, ⟨70459, 70460, 1⟩, ⟨70462, 70464, 2⟩,
   ⟨70477, 70477, 1⟩, ⟨70487, 70487, 1⟩, ⟨70502, 70508, 1⟩, ⟨70512, 70516, 1⟩, ⟨70584, 70584, 1⟩,
   ⟨70587, 70592, 1⟩, ⟨70594, 70594, 1⟩, ⟨70597, 70599, 2⟩, ⟨70600, 70601, 1⟩, ⟨70606, 70608, 1⟩,
   ⟨70610, 70610, 1⟩, ⟨70625, 70626, 1⟩, ⟨70712, 70719, 1⟩, ⟨70722, 70724, 1⟩, ⟨70726, 70726, 1⟩,
   ⟨70750, 70750, 1⟩, ⟨70832, 70832, 1⟩, ⟨70835, 70840, 1⟩, ⟨70842, 70842, 1⟩, ⟨70845, 70847, 2⟩,
   ⟨70848, 70850, 2⟩, ⟨70851, 70851, 1⟩, ⟨71087, 71087, 1⟩, ⟨71090, 71093, 1⟩, ⟨71100, 71101, 1⟩,
   ⟨71103, 71104, 1⟩, ⟨71132, 71133, 1⟩, ⟨71219, 71226, 1⟩, ⟨71229, 71231, 2⟩, ⟨71232, 71232, 1⟩,
   ⟨71339, 71341, 2⟩, ⟨71344, 71351, 1⟩, ⟨71453, 71455, 2⟩, ⟨71458, 71461, 1⟩, ⟨71463, 71467, 1⟩,
   ⟨71727, 71735, 1⟩, ⟨71737, 71738, 1⟩, ⟨71984, 71984, 1⟩, ⟨71995, 71998, 1⟩, ⟨72003, 72003, 1⟩,
   ⟨72148, 72151, 1⟩, ⟨72154, 72155, 1⟩, ⟨72160, 72160, 1⟩, ⟨72193, 72202, 1⟩, ⟨72243, 72248, 1⟩,
   ⟨72251, 72254, 1⟩, ⟨72263, 72263, 1⟩, ⟨72273, 72278, 1⟩, ⟨72281, 72283, 1⟩, ⟨72330, 72342, 1⟩,
   ⟨72344, 72345, 1⟩, ⟨72544, 72546, 2⟩, ⟨72547, 72548, 1⟩, ⟨72550, 72550, 1⟩, ⟨72752, 72758, 1⟩,
   ⟨72760, 72765, 1⟩, ⟨72767, 72767, 1⟩, ⟨72850, 72871, 1⟩, ⟨72874, 72880, 1⟩, ⟨72882, 72883, 1⟩,
   ⟨72885, 72886, 1⟩, ⟨73009, 73014, 1⟩, ⟨73018, 73020, 2⟩, ⟨73021, 73023, 2⟩, ⟨73024, 73029, 1⟩,
   ⟨73031, 73031, 1⟩, ⟨73104, 73105, 1⟩, ⟨73109, 73111, 2⟩, ⟨73459, 73460, 1⟩, ⟨73472, 73473, 1⟩,
   ⟨73526, 73530, 1⟩, ⟨73536, 73538, 1⟩, ⟨73562, 73562, 1⟩, ⟨78912, 78912, 1⟩, ⟨78919, 78933, 1⟩,
   ⟨90398, 90409, 1⟩, ⟨90413, 90415, 1⟩, ⟨92912, 92916, 1⟩, ⟨92976, 92982, 1⟩, ⟨94031, 94031, 1⟩,
   ⟨94095, 94098, 1⟩, ⟨94180, 94180, 1⟩, ⟨94192, 94193, 1⟩, ⟨113821, 113822, 1⟩,
   ⟨118528, 118573, 1⟩, ⟨118576, 118598, 1⟩, ⟨119141, 119145, 1⟩, ⟨119149, 119154, 1⟩,
   ⟨119163, 119170, 1⟩, ⟨119173, 119179, 1⟩, ⟨119210, 119213, 1⟩, ⟨119362, 119364, 1⟩,
   ⟨121344, 121398, 1⟩, ⟨121403, 121452, 1⟩, ⟨121461, 121461, 1⟩, ⟨121476, 121476, 1⟩,
   ⟨121499, 121503, 1⟩, ⟨121505, 121519, 1⟩, ⟨122880, 122886, 1⟩, ⟨122888, 122904, 1⟩,
   ⟨122907, 122913, 1⟩, ⟨122915, 122916, 1⟩, ⟨122918, 122922, 1⟩, ⟨123023, 123023, 1⟩,
   ⟨123184, 123190, 1⟩, ⟨123566, 123566, 1⟩, ⟨123628, 123631, 1⟩, ⟨124140, 124143, 1⟩,
   ⟨124398, 124399, 1⟩, ⟨124643, 124643, 1⟩, ⟨124646, 124646, 1⟩, ⟨124654, 124655, 1⟩,
   ⟨124661, 124661, 1⟩, ⟨125136, 125142, 1⟩, ⟨125252, 125258, 1⟩, ⟨917536, 917631, 1⟩,
   ⟨917760, 917999, 1⟩]

def isVisible (c : Char) : Bool :=
  if c.toNat < 128 then ' ' ≤ c && c ≤ '~'
  else !inRuns extendingRuns c.toNat && !inRuns invisibleRuns c.toNat

def escapeVisible (c : Char) : List Char :=
  if c = '\x00' then ['\\', '0']
  else if c = '\t' then ['\\', 't']
  else if c = '\r' then ['\\', 'r']
  else if c = '\n' then ['\\', 'n']
  else if c = '"' then ['\\', '"']
  else if c = '\\' then ['\\', '\\']
  else if isVisible c then [c]
  else ['\\', 'u', '\x7b'] ++ Nat.toDigits 16 c.toNat ++ ['\x7d']

/-- The text in double quotes. -/
def quoted (s : List Char) : List Char := ['"'] ++ s.flatMap escapeVisible ++ ['"']

end Scaffold.Text
