import Docbase.Text.Ranges

namespace Docbase.Text

/-- Code points from 128 up that have the property XID_Start or no character, in version 17 of
Unicode. -/
def identifierStartRanges : List (Nat × Nat) := [
  (0xaa, 0xaa), (0xb5, 0xb5), (0xba, 0xba), (0xc0, 0xd6), (0xd8, 0xf6), (0xf8, 0x2c1),
  (0x2c6, 0x2d1), (0x2e0, 0x2e4), (0x2ec, 0x2ec), (0x2ee, 0x2ee), (0x370, 0x374), (0x376, 0x379),
  (0x37b, 0x37d), (0x37f, 0x383), (0x386, 0x386), (0x388, 0x3f5), (0x3f7, 0x481), (0x48a, 0x559),
  (0x560, 0x588), (0x58b, 0x58c), (0x590, 0x590), (0x5c8, 0x5f2), (0x5f5, 0x5ff), (0x620, 0x64a),
  (0x66e, 0x66f), (0x671, 0x6d3), (0x6d5, 0x6d5), (0x6e5, 0x6e6), (0x6ee, 0x6ef), (0x6fa, 0x6fc),
  (0x6ff, 0x6ff), (0x70e, 0x70e), (0x710, 0x710), (0x712, 0x72f), (0x74b, 0x7a5), (0x7b1, 0x7bf),
  (0x7ca, 0x7ea), (0x7f4, 0x7f5), (0x7fa, 0x7fc), (0x800, 0x815), (0x81a, 0x81a), (0x824, 0x824),
  (0x828, 0x828), (0x82e, 0x82f), (0x83f, 0x858), (0x85c, 0x85d), (0x85f, 0x887), (0x889, 0x88f),
  (0x892, 0x896), (0x8a0, 0x8c9), (0x904, 0x939), (0x93d, 0x93d), (0x950, 0x950), (0x958, 0x961),
  (0x971, 0x980), (0x984, 0x9bb), (0x9bd, 0x9bd), (0x9c5, 0x9c6), (0x9c9, 0x9ca), (0x9ce, 0x9d6),
  (0x9d8, 0x9e1), (0x9e4, 0x9e5), (0x9f0, 0x9f1), (0x9fc, 0x9fc), (0x9ff, 0xa00), (0xa04, 0xa3b),
  (0xa3d, 0xa3d), (0xa43, 0xa46), (0xa49, 0xa4a), (0xa4e, 0xa50), (0xa52, 0xa65), (0xa72, 0xa74),
  (0xa77, 0xa80), (0xa84, 0xabb), (0xabd, 0xabd), (0xac6, 0xac6), (0xaca, 0xaca), (0xace, 0xae1),
  (0xae4, 0xae5), (0xaf2, 0xaf9), (0xb00, 0xb00), (0xb04, 0xb3b), (0xb3d, 0xb3d), (0xb45, 0xb46),
  (0xb49, 0xb4a), (0xb4e, 0xb54), (0xb58, 0xb61), (0xb64, 0xb65), (0xb71, 0xb71), (0xb78, 0xb81),
  (0xb83, 0xbbd), (0xbc3, 0xbc5), (0xbc9, 0xbc9), (0xbce, 0xbd6), (0xbd8, 0xbe5), (0xbfb, 0xbff),
  (0xc05, 0xc3b), (0xc3d, 0xc3d), (0xc45, 0xc45), (0xc49, 0xc49), (0xc4e, 0xc54), (0xc57, 0xc61),
  (0xc64, 0xc65), (0xc70, 0xc76), (0xc80, 0xc80), (0xc85, 0xcbb), (0xcbd, 0xcbd), (0xcc5, 0xcc5),
  (0xcc9, 0xcc9), (0xcce, 0xcd4), (0xcd7, 0xce1), (0xce4, 0xce5), (0xcf0, 0xcf2), (0xcf4, 0xcff),
  (0xd04, 0xd3a), (0xd3d, 0xd3d), (0xd45, 0xd45), (0xd49, 0xd49), (0xd4e, 0xd4e), (0xd50, 0xd56),
  (0xd5f, 0xd61), (0xd64, 0xd65), (0xd7a, 0xd80), (0xd84, 0xdc9), (0xdcb, 0xdce), (0xdd5, 0xdd5),
  (0xdd7, 0xdd7), (0xde0, 0xde5), (0xdf0, 0xdf1), (0xdf5, 0xe30), (0xe32, 0xe32), (0xe3b, 0xe3e),
  (0xe40, 0xe46), (0xe5c, 0xeb0), (0xeb2, 0xeb2), (0xebd, 0xec7), (0xecf, 0xecf), (0xeda, 0xf00),
  (0xf40, 0xf70), (0xf88, 0xf8c), (0xf98, 0xf98), (0xfbd, 0xfbd), (0xfcd, 0xfcd), (0xfdb, 0x102a),
  (0x103f, 0x103f), (0x1050, 0x1055), (0x105a, 0x105d), (0x1061, 0x1061), (0x1065, 0x1066),
  (0x106e, 0x1070), (0x1075, 0x1081), (0x108e, 0x108e), (0x10a0, 0x10fa), (0x10fc, 0x135c),
  (0x137d, 0x138f), (0x139a, 0x13ff), (0x1401, 0x166c), (0x166f, 0x167f), (0x1681, 0x169a),
  (0x169d, 0x16ea), (0x16ee, 0x1711), (0x1716, 0x1731), (0x1737, 0x1751), (0x1754, 0x1771),
  (0x1774, 0x17b3), (0x17d7, 0x17d7), (0x17dc, 0x17dc), (0x17de, 0x17df), (0x17ea, 0x17ef),
  (0x17fa, 0x17ff), (0x181a, 0x18a8), (0x18aa, 0x191f), (0x192c, 0x192f), (0x193c, 0x193f),
  (0x1941, 0x1943), (0x1950, 0x19cf), (0x19db, 0x19dd), (0x1a00, 0x1a16), (0x1a1c, 0x1a1d),
  (0x1a20, 0x1a54), (0x1a5f, 0x1a5f), (0x1a7d, 0x1a7e), (0x1a8a, 0x1a8f), (0x1a9a, 0x1a9f),
  (0x1aa7, 0x1aa7), (0x1aae, 0x1aaf), (0x1ade, 0x1adf), (0x1aec, 0x1aff), (0x1b05, 0x1b33),
  (0x1b45, 0x1b4d), (0x1b83, 0x1ba0), (0x1bae, 0x1baf), (0x1bba, 0x1be5), (0x1bf4, 0x1bfb),
  (0x1c00, 0x1c23), (0x1c38, 0x1c3a), (0x1c4a, 0x1c4f), (0x1c5a, 0x1c7d), (0x1c80, 0x1cbf),
  (0x1cc8, 0x1ccf), (0x1ce9, 0x1cec), (0x1cee, 0x1cf3), (0x1cf5, 0x1cf6), (0x1cfa, 0x1dbf),
  (0x1e00, 0x1fbc), (0x1fbe, 0x1fbe), (0x1fc2, 0x1fcc), (0x1fd0, 0x1fdc), (0x1fe0, 0x1fec),
  (0x1ff0, 0x1ffc), (0x1fff, 0x1fff), (0x2065, 0x2065), (0x2071, 0x2073), (0x207f, 0x207f),
  (0x208f, 0x209f), (0x20c2, 0x20cf), (0x20f1, 0x20ff), (0x2102, 0x2102), (0x2107, 0x2107),
  (0x210a, 0x2113), (0x2115, 0x2115), (0x2118, 0x211d), (0x2124, 0x2124), (0x2126, 0x2126),
  (0x2128, 0x2128), (0x212a, 0x2139), (0x213c, 0x213f), (0x2145, 0x2149), (0x214e, 0x214e),
  (0x2160, 0x2188), (0x218c, 0x218f), (0x242a, 0x243f), (0x244b, 0x245f), (0x2b74, 0x2b75),
  (0x2c00, 0x2ce4), (0x2ceb, 0x2cee), (0x2cf2, 0x2cf8), (0x2d00, 0x2d6f), (0x2d71, 0x2d7e),
  (0x2d80, 0x2ddf), (0x2e5e, 0x2e7f), (0x2e9a, 0x2e9a), (0x2ef4, 0x2eff), (0x2fd6, 0x2fef),
  (0x3005, 0x3007), (0x3021, 0x3029), (0x3031, 0x3035), (0x3038, 0x303c), (0x3040, 0x3098),
  (0x309d, 0x309f), (0x30a1, 0x30fa), (0x30fc, 0x318f), (0x31a0, 0x31bf), (0x31e6, 0x31ee),
  (0x31f0, 0x31ff), (0x321f, 0x321f), (0x3400, 0x4dbf), (0x4e00, 0xa48f), (0xa4c7, 0xa4fd),
  (0xa500, 0xa60c), (0xa610, 0xa61f), (0xa62a, 0xa66e), (0xa67f, 0xa69d), (0xa6a0, 0xa6ef),
  (0xa6f8, 0xa6ff), (0xa717, 0xa71f), (0xa722, 0xa788), (0xa78b, 0xa801), (0xa803, 0xa805),
  (0xa807, 0xa80a), (0xa80c, 0xa822), (0xa82d, 0xa82f), (0xa83a, 0xa873), (0xa878, 0xa87f),
  (0xa882, 0xa8b3), (0xa8c6, 0xa8cd), (0xa8da, 0xa8df), (0xa8f2, 0xa8f7), (0xa8fb, 0xa8fb),
  (0xa8fd, 0xa8fe), (0xa90a, 0xa925), (0xa930, 0xa946), (0xa954, 0xa95e), (0xa960, 0xa97f),
  (0xa984, 0xa9b2), (0xa9ce, 0xa9cf), (0xa9da, 0xa9dd), (0xa9e0, 0xa9e4), (0xa9e6, 0xa9ef),
  (0xa9fa, 0xaa28), (0xaa37, 0xaa42), (0xaa44, 0xaa4b), (0xaa4e, 0xaa4f), (0xaa5a, 0xaa5b),
  (0xaa60, 0xaa76), (0xaa7a, 0xaa7a), (0xaa7e, 0xaaaf), (0xaab1, 0xaab1), (0xaab5, 0xaab6),
  (0xaab9, 0xaabd), (0xaac0, 0xaac0), (0xaac2, 0xaadd), (0xaae0, 0xaaea), (0xaaf2, 0xaaf4),
  (0xaaf7, 0xab5a), (0xab5c, 0xab69), (0xab6c, 0xabe2), (0xabee, 0xabef), (0xabfa, 0xd7ff),
  (0xf900, 0xfb1d), (0xfb1f, 0xfb28), (0xfb2a, 0xfbb1), (0xfbd3, 0xfc5d), (0xfc64, 0xfd3d),
  (0xfd50, 0xfd8f), (0xfd92, 0xfdc7), (0xfdd0, 0xfdf9), (0xfe1a, 0xfe1f), (0xfe53, 0xfe53),
  (0xfe67, 0xfe67), (0xfe6c, 0xfe6f), (0xfe71, 0xfe71), (0xfe73, 0xfe73), (0xfe75, 0xfe75),
  (0xfe77, 0xfe77), (0xfe79, 0xfe79), (0xfe7b, 0xfe7b), (0xfe7d, 0xfe7d), (0xfe7f, 0xfefe),
  (0xff00, 0xff00), (0xff21, 0xff3a), (0xff41, 0xff5a), (0xff66, 0xff9d), (0xffa0, 0xffdf),
  (0xffe7, 0xffe7), (0xffef, 0xfff8), (0xfffe, 0x100ff), (0x10103, 0x10106), (0x10134, 0x10136),
  (0x10140, 0x10174), (0x1018f, 0x1018f), (0x1019d, 0x1019f), (0x101a1, 0x101cf),
  (0x101fe, 0x102df), (0x102fc, 0x1031f), (0x10324, 0x10375), (0x1037b, 0x1039e),
  (0x103a0, 0x103cf), (0x103d1, 0x1049f), (0x104aa, 0x1056e), (0x10570, 0x10856),
  (0x10860, 0x10876), (0x10880, 0x108a6), (0x108b0, 0x108fa), (0x10900, 0x10915),
  (0x1091c, 0x1091e), (0x10920, 0x1093e), (0x10940, 0x109bb), (0x109be, 0x109bf),
  (0x109d0, 0x109d1), (0x10a00, 0x10a00), (0x10a04, 0x10a04), (0x10a07, 0x10a0b),
  (0x10a10, 0x10a37), (0x10a3b, 0x10a3e), (0x10a49, 0x10a4f), (0x10a59, 0x10a7c),
  (0x10a80, 0x10a9c), (0x10aa0, 0x10ac7), (0x10ac9, 0x10ae4), (0x10ae7, 0x10aea),
  (0x10af7, 0x10b38), (0x10b40, 0x10b57), (0x10b60, 0x10b77), (0x10b80, 0x10b98),
  (0x10b9d, 0x10ba8), (0x10bb0, 0x10cf9), (0x10d00, 0x10d23), (0x10d28, 0x10d2f),
  (0x10d3a, 0x10d3f), (0x10d4a, 0x10d68), (0x10d6f, 0x10d8d), (0x10d90, 0x10e5f),
  (0x10e7f, 0x10eaa), (0x10eae, 0x10ecf), (0x10ed9, 0x10ef9), (0x10f00, 0x10f1c),
  (0x10f27, 0x10f45), (0x10f5a, 0x10f81), (0x10f8a, 0x10fc4), (0x10fcc, 0x10fff),
  (0x11003, 0x11037), (0x1104e, 0x11051), (0x11071, 0x11072), (0x11075, 0x1107e),
  (0x11083, 0x110af), (0x110c3, 0x110cc), (0x110ce, 0x110ef), (0x110fa, 0x110ff),
  (0x11103, 0x11126), (0x11135, 0x11135), (0x11144, 0x11144), (0x11147, 0x11172),
  (0x11176, 0x1117f), (0x11183, 0x111b2), (0x111c1, 0x111c4), (0x111da, 0x111da),
  (0x111dc, 0x111dc), (0x111e0, 0x111e0), (0x111f5, 0x1122b), (0x1123f, 0x11240),
  (0x11242, 0x112a8), (0x112aa, 0x112de), (0x112eb, 0x112ef), (0x112fa, 0x112ff),
  (0x11304, 0x1133a), (0x1133d, 0x1133d), (0x11345, 0x11346), (0x11349, 0x1134a),
  (0x1134e, 0x11356), (0x11358, 0x11361), (0x11364, 0x11365), (0x1136d, 0x1136f),
  (0x11375, 0x113b7), (0x113c1, 0x113c1), (0x113c3, 0x113c4), (0x113c6, 0x113c6),
  (0x113cb, 0x113cb), (0x113d1, 0x113d1), (0x113d3, 0x113d3), (0x113d6, 0x113d6),
  (0x113d9, 0x113e0), (0x113e3, 0x11434), (0x11447, 0x1144a), (0x1145c, 0x1145c),
  (0x1145f, 0x114af), (0x114c4, 0x114c5), (0x114c7, 0x114cf), (0x114da, 0x115ae),
  (0x115b6, 0x115b7), (0x115d8, 0x115db), (0x115de, 0x1162f), (0x11644, 0x1164f),
  (0x1165a, 0x1165f), (0x1166d, 0x116aa), (0x116b8, 0x116b8), (0x116ba, 0x116bf),
  (0x116ca, 0x116cf), (0x116e4, 0x1171c), (0x1172c, 0x1172f), (0x11740, 0x1182b),
  (0x1183c, 0x118df), (0x118f3, 0x1192f), (0x11936, 0x11936), (0x11939, 0x1193a),
  (0x1193f, 0x1193f), (0x11941, 0x11941), (0x11947, 0x1194f), (0x1195a, 0x119d0),
  (0x119d8, 0x119d9), (0x119e1, 0x119e1), (0x119e3, 0x119e3), (0x119e5, 0x11a00),
  (0x11a0b, 0x11a32), (0x11a3a, 0x11a3a), (0x11a48, 0x11a50), (0x11a5c, 0x11a89),
  (0x11a9d, 0x11a9d), (0x11aa3, 0x11aff), (0x11b0a, 0x11b5f), (0x11b68, 0x11be0),
  (0x11be2, 0x11bef), (0x11bfa, 0x11c2e), (0x11c37, 0x11c37), (0x11c40, 0x11c40),
  (0x11c46, 0x11c4f), (0x11c6d, 0x11c6f), (0x11c72, 0x11c91), (0x11ca8, 0x11ca8),
  (0x11cb7, 0x11d30), (0x11d37, 0x11d39), (0x11d3b, 0x11d3b), (0x11d3e, 0x11d3e),
  (0x11d46, 0x11d46), (0x11d48, 0x11d4f), (0x11d5a, 0x11d89), (0x11d8f, 0x11d8f),
  (0x11d92, 0x11d92), (0x11d98, 0x11d9f), (0x11daa, 0x11ddf), (0x11dea, 0x11ef2),
  (0x11ef9, 0x11eff), (0x11f02, 0x11f02), (0x11f04, 0x11f33), (0x11f3b, 0x11f3d),
  (0x11f5b, 0x11fbf), (0x11ff2, 0x11ffe), (0x12000, 0x1246f), (0x12475, 0x12ff0),
  (0x12ff3, 0x1342f), (0x13441, 0x13446), (0x13456, 0x1611d), (0x1613a, 0x16a5f),
  (0x16a6a, 0x16a6d), (0x16a70, 0x16abf), (0x16aca, 0x16aef), (0x16af6, 0x16b2f),
  (0x16b40, 0x16b43), (0x16b46, 0x16b4f), (0x16b5a, 0x16b5a), (0x16b62, 0x16d6c),
  (0x16d7a, 0x16e7f), (0x16e9b, 0x16f4e), (0x16f50, 0x16f50), (0x16f88, 0x16f8e),
  (0x16f93, 0x16fe1), (0x16fe3, 0x16fe3), (0x16fe5, 0x16fef), (0x16ff2, 0x1bc9b),
  (0x1bca4, 0x1cbff), (0x1ccfd, 0x1ccff), (0x1ceb4, 0x1ceb9), (0x1ced1, 0x1cedf),
  (0x1cef1, 0x1ceff), (0x1cf2e, 0x1cf2f), (0x1cf47, 0x1cf4f), (0x1cfc4, 0x1cfff),
  (0x1d0f6, 0x1d0ff), (0x1d127, 0x1d128), (0x1d1eb, 0x1d1ff), (0x1d246, 0x1d2bf),
  (0x1d2d4, 0x1d2df), (0x1d2f4, 0x1d2ff), (0x1d357, 0x1d35f), (0x1d379, 0x1d6c0),
  (0x1d6c2, 0x1d6da), (0x1d6dc, 0x1d6fa), (0x1d6fc, 0x1d714), (0x1d716, 0x1d734),
  (0x1d736, 0x1d74e), (0x1d750, 0x1d76e), (0x1d770, 0x1d788), (0x1d78a, 0x1d7a8),
  (0x1d7aa, 0x1d7c2), (0x1d7c4, 0x1d7cd), (0x1da8c, 0x1da9a), (0x1daa0, 0x1daa0),
  (0x1dab0, 0x1dfff), (0x1e007, 0x1e007), (0x1e019, 0x1e01a), (0x1e022, 0x1e022),
  (0x1e025, 0x1e025), (0x1e02b, 0x1e08e), (0x1e090, 0x1e12f), (0x1e137, 0x1e13f),
  (0x1e14a, 0x1e14e), (0x1e150, 0x1e2ad), (0x1e2af, 0x1e2eb), (0x1e2fa, 0x1e2fe),
  (0x1e300, 0x1e4eb), (0x1e4fa, 0x1e5ed), (0x1e5f0, 0x1e5f0), (0x1e5fb, 0x1e5fe),
  (0x1e600, 0x1e6e2), (0x1e6e4, 0x1e6e5), (0x1e6e7, 0x1e6ed), (0x1e6f0, 0x1e6f4),
  (0x1e6f6, 0x1e8c6), (0x1e8d7, 0x1e943), (0x1e94b, 0x1e94f), (0x1e95a, 0x1e95d),
  (0x1e960, 0x1ec70), (0x1ecb5, 0x1ed00), (0x1ed3e, 0x1eeef), (0x1eef2, 0x1efff),
  (0x1f02c, 0x1f02f), (0x1f094, 0x1f09f), (0x1f0af, 0x1f0b0), (0x1f0c0, 0x1f0c0),
  (0x1f0d0, 0x1f0d0), (0x1f0f6, 0x1f0ff), (0x1f1ae, 0x1f1e5), (0x1f203, 0x1f20f),
  (0x1f23c, 0x1f23f), (0x1f249, 0x1f24f), (0x1f252, 0x1f25f), (0x1f266, 0x1f2ff),
  (0x1f6d9, 0x1f6db), (0x1f6ed, 0x1f6ef), (0x1f6fd, 0x1f6ff), (0x1f7da, 0x1f7df),
  (0x1f7ec, 0x1f7ef), (0x1f7f1, 0x1f7ff), (0x1f80c, 0x1f80f), (0x1f848, 0x1f84f),
  (0x1f85a, 0x1f85f), (0x1f888, 0x1f88f), (0x1f8ae, 0x1f8af), (0x1f8bc, 0x1f8bf),
  (0x1f8c2, 0x1f8cf), (0x1f8d9, 0x1f8ff), (0x1fa58, 0x1fa5f), (0x1fa6e, 0x1fa6f),
  (0x1fa7d, 0x1fa7f), (0x1fa8b, 0x1fa8d), (0x1fac7, 0x1fac7), (0x1fac9, 0x1facc),
  (0x1fadd, 0x1fade), (0x1faeb, 0x1faee), (0x1faf9, 0x1faff), (0x1fb93, 0x1fb93),
  (0x1fbfb, 0xe0000), (0xe0002, 0xe001f), (0xe0080, 0xe00ff), (0xe01f0, 0xeffff),
  (0xffffe, 0xfffff), (0x10fffe, 0x10ffff)]

def identifierMoreRanges : List (Nat × Nat) := [
  (0xb7, 0xb7), (0x300, 0x36f), (0x387, 0x387), (0x483, 0x487), (0x591, 0x5bd), (0x5bf, 0x5bf),
  (0x5c1, 0x5c2), (0x5c4, 0x5c5), (0x5c7, 0x5c7), (0x610, 0x61a), (0x64b, 0x669), (0x670, 0x670),
  (0x6d6, 0x6dc), (0x6df, 0x6e4), (0x6e7, 0x6e8), (0x6ea, 0x6ed), (0x6f0, 0x6f9), (0x711, 0x711),
  (0x730, 0x74a), (0x7a6, 0x7b0), (0x7c0, 0x7c9), (0x7eb, 0x7f3), (0x7fd, 0x7fd), (0x816, 0x819),
  (0x81b, 0x823), (0x825, 0x827), (0x829, 0x82d), (0x859, 0x85b), (0x897, 0x89f), (0x8ca, 0x8e1),
  (0x8e3, 0x903), (0x93a, 0x93c), (0x93e, 0x94f), (0x951, 0x957), (0x962, 0x963), (0x966, 0x96f),
  (0x981, 0x983), (0x9bc, 0x9bc), (0x9be, 0x9c4), (0x9c7, 0x9c8), (0x9cb, 0x9cd), (0x9d7, 0x9d7),
  (0x9e2, 0x9e3), (0x9e6, 0x9ef), (0x9fe, 0x9fe), (0xa01, 0xa03), (0xa3c, 0xa3c), (0xa3e, 0xa42),
  (0xa47, 0xa48), (0xa4b, 0xa4d), (0xa51, 0xa51), (0xa66, 0xa71), (0xa75, 0xa75), (0xa81, 0xa83),
  (0xabc, 0xabc), (0xabe, 0xac5), (0xac7, 0xac9), (0xacb, 0xacd), (0xae2, 0xae3), (0xae6, 0xaef),
  (0xafa, 0xaff), (0xb01, 0xb03), (0xb3c, 0xb3c), (0xb3e, 0xb44), (0xb47, 0xb48), (0xb4b, 0xb4d),
  (0xb55, 0xb57), (0xb62, 0xb63), (0xb66, 0xb6f), (0xb82, 0xb82), (0xbbe, 0xbc2), (0xbc6, 0xbc8),
  (0xbca, 0xbcd), (0xbd7, 0xbd7), (0xbe6, 0xbef), (0xc00, 0xc04), (0xc3c, 0xc3c), (0xc3e, 0xc44),
  (0xc46, 0xc48), (0xc4a, 0xc4d), (0xc55, 0xc56), (0xc62, 0xc63), (0xc66, 0xc6f), (0xc81, 0xc83),
  (0xcbc, 0xcbc), (0xcbe, 0xcc4), (0xcc6, 0xcc8), (0xcca, 0xccd), (0xcd5, 0xcd6), (0xce2, 0xce3),
  (0xce6, 0xcef), (0xcf3, 0xcf3), (0xd00, 0xd03), (0xd3b, 0xd3c), (0xd3e, 0xd44), (0xd46, 0xd48),
  (0xd4a, 0xd4d), (0xd57, 0xd57), (0xd62, 0xd63), (0xd66, 0xd6f), (0xd81, 0xd83), (0xdca, 0xdca),
  (0xdcf, 0xdd4), (0xdd6, 0xdd6), (0xdd8, 0xddf), (0xde6, 0xdef), (0xdf2, 0xdf3), (0xe31, 0xe31),
  (0xe33, 0xe3a), (0xe47, 0xe4e), (0xe50, 0xe59), (0xeb1, 0xeb1), (0xeb3, 0xebc), (0xec8, 0xece),
  (0xed0, 0xed9), (0xf18, 0xf19), (0xf20, 0xf29), (0xf35, 0xf35), (0xf37, 0xf37), (0xf39, 0xf39),
  (0xf3e, 0xf3f), (0xf71, 0xf84), (0xf86, 0xf87), (0xf8d, 0xf97), (0xf99, 0xfbc), (0xfc6, 0xfc6),
  (0x102b, 0x103e), (0x1040, 0x1049), (0x1056, 0x1059), (0x105e, 0x1060), (0x1062, 0x1064),
  (0x1067, 0x106d), (0x1071, 0x1074), (0x1082, 0x108d), (0x108f, 0x109d), (0x135d, 0x135f),
  (0x1369, 0x1371), (0x1712, 0x1715), (0x1732, 0x1734), (0x1752, 0x1753), (0x1772, 0x1773),
  (0x17b4, 0x17d3), (0x17dd, 0x17dd), (0x17e0, 0x17e9), (0x180b, 0x180d), (0x180f, 0x1819),
  (0x18a9, 0x18a9), (0x1920, 0x192b), (0x1930, 0x193b), (0x1946, 0x194f), (0x19d0, 0x19da),
  (0x1a17, 0x1a1b), (0x1a55, 0x1a5e), (0x1a60, 0x1a7c), (0x1a7f, 0x1a89), (0x1a90, 0x1a99),
  (0x1ab0, 0x1abd), (0x1abf, 0x1add), (0x1ae0, 0x1aeb), (0x1b00, 0x1b04), (0x1b34, 0x1b44),
  (0x1b50, 0x1b59), (0x1b6b, 0x1b73), (0x1b80, 0x1b82), (0x1ba1, 0x1bad), (0x1bb0, 0x1bb9),
  (0x1be6, 0x1bf3), (0x1c24, 0x1c37), (0x1c40, 0x1c49), (0x1c50, 0x1c59), (0x1cd0, 0x1cd2),
  (0x1cd4, 0x1ce8), (0x1ced, 0x1ced), (0x1cf4, 0x1cf4), (0x1cf7, 0x1cf9), (0x1dc0, 0x1dff),
  (0x200c, 0x200d), (0x203f, 0x2040), (0x2054, 0x2054), (0x20d0, 0x20dc), (0x20e1, 0x20e1),
  (0x20e5, 0x20f0), (0x2cef, 0x2cf1), (0x2d7f, 0x2d7f), (0x2de0, 0x2dff), (0x302a, 0x302f),
  (0x3099, 0x309a), (0x30fb, 0x30fb), (0xa620, 0xa629), (0xa66f, 0xa66f), (0xa674, 0xa67d),
  (0xa69e, 0xa69f), (0xa6f0, 0xa6f1), (0xa802, 0xa802), (0xa806, 0xa806), (0xa80b, 0xa80b),
  (0xa823, 0xa827), (0xa82c, 0xa82c), (0xa880, 0xa881), (0xa8b4, 0xa8c5), (0xa8d0, 0xa8d9),
  (0xa8e0, 0xa8f1), (0xa8ff, 0xa909), (0xa926, 0xa92d), (0xa947, 0xa953), (0xa980, 0xa983),
  (0xa9b3, 0xa9c0), (0xa9d0, 0xa9d9), (0xa9e5, 0xa9e5), (0xa9f0, 0xa9f9), (0xaa29, 0xaa36),
  (0xaa43, 0xaa43), (0xaa4c, 0xaa4d), (0xaa50, 0xaa59), (0xaa7b, 0xaa7d), (0xaab0, 0xaab0),
  (0xaab2, 0xaab4), (0xaab7, 0xaab8), (0xaabe, 0xaabf), (0xaac1, 0xaac1), (0xaaeb, 0xaaef),
  (0xaaf5, 0xaaf6), (0xabe3, 0xabea), (0xabec, 0xabed), (0xabf0, 0xabf9), (0xfb1e, 0xfb1e),
  (0xfe00, 0xfe0f), (0xfe20, 0xfe2f), (0xfe33, 0xfe34), (0xfe4d, 0xfe4f), (0xff10, 0xff19),
  (0xff3f, 0xff3f), (0xff65, 0xff65), (0xff9e, 0xff9f), (0x101fd, 0x101fd), (0x102e0, 0x102e0),
  (0x10376, 0x1037a), (0x104a0, 0x104a9), (0x10a01, 0x10a03), (0x10a05, 0x10a06),
  (0x10a0c, 0x10a0f), (0x10a38, 0x10a3a), (0x10a3f, 0x10a3f), (0x10ae5, 0x10ae6),
  (0x10d24, 0x10d27), (0x10d30, 0x10d39), (0x10d40, 0x10d49), (0x10d69, 0x10d6d),
  (0x10eab, 0x10eac), (0x10efa, 0x10eff), (0x10f46, 0x10f50), (0x10f82, 0x10f85),
  (0x11000, 0x11002), (0x11038, 0x11046), (0x11066, 0x11070), (0x11073, 0x11074),
  (0x1107f, 0x11082), (0x110b0, 0x110ba), (0x110c2, 0x110c2), (0x110f0, 0x110f9),
  (0x11100, 0x11102), (0x11127, 0x11134), (0x11136, 0x1113f), (0x11145, 0x11146),
  (0x11173, 0x11173), (0x11180, 0x11182), (0x111b3, 0x111c0), (0x111c9, 0x111cc),
  (0x111ce, 0x111d9), (0x1122c, 0x11237), (0x1123e, 0x1123e), (0x11241, 0x11241),
  (0x112df, 0x112ea), (0x112f0, 0x112f9), (0x11300, 0x11303), (0x1133b, 0x1133c),
  (0x1133e, 0x11344), (0x11347, 0x11348), (0x1134b, 0x1134d), (0x11357, 0x11357),
  (0x11362, 0x11363), (0x11366, 0x1136c), (0x11370, 0x11374), (0x113b8, 0x113c0),
  (0x113c2, 0x113c2), (0x113c5, 0x113c5), (0x113c7, 0x113ca), (0x113cc, 0x113d0),
  (0x113d2, 0x113d2), (0x113e1, 0x113e2), (0x11435, 0x11446), (0x11450, 0x11459),
  (0x1145e, 0x1145e), (0x114b0, 0x114c3), (0x114d0, 0x114d9), (0x115af, 0x115b5),
  (0x115b8, 0x115c0), (0x115dc, 0x115dd), (0x11630, 0x11640), (0x11650, 0x11659),
  (0x116ab, 0x116b7), (0x116c0, 0x116c9), (0x116d0, 0x116e3), (0x1171d, 0x1172b),
  (0x11730, 0x11739), (0x1182c, 0x1183a), (0x118e0, 0x118e9), (0x11930, 0x11935),
  (0x11937, 0x11938), (0x1193b, 0x1193e), (0x11940, 0x11940), (0x11942, 0x11943),
  (0x11950, 0x11959), (0x119d1, 0x119d7), (0x119da, 0x119e0), (0x119e4, 0x119e4),
  (0x11a01, 0x11a0a), (0x11a33, 0x11a39), (0x11a3b, 0x11a3e), (0x11a47, 0x11a47),
  (0x11a51, 0x11a5b), (0x11a8a, 0x11a99), (0x11b60, 0x11b67), (0x11bf0, 0x11bf9),
  (0x11c2f, 0x11c36), (0x11c38, 0x11c3f), (0x11c50, 0x11c59), (0x11c92, 0x11ca7),
  (0x11ca9, 0x11cb6), (0x11d31, 0x11d36), (0x11d3a, 0x11d3a), (0x11d3c, 0x11d3d),
  (0x11d3f, 0x11d45), (0x11d47, 0x11d47), (0x11d50, 0x11d59), (0x11d8a, 0x11d8e),
  (0x11d90, 0x11d91), (0x11d93, 0x11d97), (0x11da0, 0x11da9), (0x11de0, 0x11de9),
  (0x11ef3, 0x11ef6), (0x11f00, 0x11f01), (0x11f03, 0x11f03), (0x11f34, 0x11f3a),
  (0x11f3e, 0x11f42), (0x11f50, 0x11f5a), (0x13440, 0x13440), (0x13447, 0x13455),
  (0x1611e, 0x16139), (0x16a60, 0x16a69), (0x16ac0, 0x16ac9), (0x16af0, 0x16af4),
  (0x16b30, 0x16b36), (0x16b50, 0x16b59), (0x16d70, 0x16d79), (0x16f4f, 0x16f4f),
  (0x16f51, 0x16f87), (0x16f8f, 0x16f92), (0x16fe4, 0x16fe4), (0x16ff0, 0x16ff1),
  (0x1bc9d, 0x1bc9e), (0x1ccf0, 0x1ccf9), (0x1cf00, 0x1cf2d), (0x1cf30, 0x1cf46),
  (0x1d165, 0x1d169), (0x1d16d, 0x1d172), (0x1d17b, 0x1d182), (0x1d185, 0x1d18b),
  (0x1d1aa, 0x1d1ad), (0x1d242, 0x1d244), (0x1d7ce, 0x1d7ff), (0x1da00, 0x1da36),
  (0x1da3b, 0x1da6c), (0x1da75, 0x1da75), (0x1da84, 0x1da84), (0x1da9b, 0x1da9f),
  (0x1daa1, 0x1daaf), (0x1e000, 0x1e006), (0x1e008, 0x1e018), (0x1e01b, 0x1e021),
  (0x1e023, 0x1e024), (0x1e026, 0x1e02a), (0x1e08f, 0x1e08f), (0x1e130, 0x1e136),
  (0x1e140, 0x1e149), (0x1e2ae, 0x1e2ae), (0x1e2ec, 0x1e2f9), (0x1e4ec, 0x1e4f9),
  (0x1e5ee, 0x1e5ef), (0x1e5f1, 0x1e5fa), (0x1e6e3, 0x1e6e3), (0x1e6e6, 0x1e6e6),
  (0x1e6ee, 0x1e6ef), (0x1e6f5, 0x1e6f5), (0x1e8d0, 0x1e8d6), (0x1e944, 0x1e94a),
  (0x1e950, 0x1e959), (0x1fbf0, 0x1fbf9), (0xe0100, 0xe01ef)]

def startsIdentifier (c : Char) : Bool :=
  if c.toNat < 128 then c.isAlpha || c = '_' else inRanges identifierStartRanges c

def continuesIdentifier (c : Char) : Bool :=
  startsIdentifier c || c.isDigit || (128 ≤ c.toNat && inRanges identifierMoreRanges c)

end Docbase.Text
