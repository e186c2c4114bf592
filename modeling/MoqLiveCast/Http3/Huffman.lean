import MoqLiveCast.Lib.Mem
/-!
# Huffman — strings as header fields may have them (`huffman.c`)

The decoder is a machine over half bytes.  A row of its table has sixteen nodes of four bytes: the next state in two, the flags, and
the symbol.
-/
namespace MoqLiveCast

def HUFFMAN_FLAG_ACCEPTED : Nat := 1

def HUFFMAN_FLAG_SYM : Nat := 2

structure HuffmanNode where
  fstate : Nat
  flags : Nat
  sym : Byte
deriving DecidableEq

def huffmanDecodeTable : List Nat := [
  0x00040000000500000007000000080000000b0000000c0000001000000013000000190000001c00000020000000230000002a0000003100000039000000400100,
  0x000003300000033100000332000003610000036300000365000003690000036f0000037300000374000d0000000e000000110000001200000014000000150000,
  0x00010230001603300001023100160331000102320016033200010261001603610001026300160363000102650016036500010269001603690001026f0016036f,
  0x00020230000902300017023000280330000202310009023100170231002803310002023200090232001702320028033200020261000902610017026100280361,
  0x0003023000060230000a0230000f023000180230001f023000290230003803300003023100060231000a0231000f023100180231001f02310029023100380331,
  0x0003023200060232000a0232000f023200180232001f023200290232003803320003026100060261000a0261000f026100180261001f02610029026100380361,
  0x0002026300090263001702630028036300020265000902650017026500280365000202690009026900170269002803690002026f0009026f0017026f0028036f,
  0x0003026300060263000a0263000f026300180263001f026300290263003803630003026500060265000a0265000f026500180265001f02650029026500380365,
  0x0003026900060269000a0269000f026900180269001f026900290269003803690003026f0006026f000a026f000f026f0018026f001f026f0029026f0038036f,
  0x0001027300160373000102740016037400000320000003250000032d0000032e0000032f00000333000003340000033500000336000003370000033800000339,
  0x0002027300090273001702730028037300020274000902740017027400280374000102200016032000010225001603250001022d0016032d0001022e0016032e,
  0x0003027300060273000a0273000f027300180273001f027300290273003803730003027400060274000a0274000f027400180274001f02740029027400380374,
  0x00020220000902200017022000280320000202250009022500170225002803250002022d0009022d0017022d0028032d0002022e0009022e0017022e0028032e,
  0x0003022000060220000a0220000f022000180220001f022000290220003803200003022500060225000a0225000f022500180225001f02250029022500380325,
  0x0003022d0006022d000a022d000f022d0018022d001f022d0029022d0038032d0003022e0006022e000a022e000f022e0018022e001f022e0029022e0038032e,
  0x0001022f0016032f0001023300160333000102340016033400010235001603350001023600160336000102370016033700010238001603380001023900160339,
  0x0002022f0009022f0017022f0028032f000202330009023300170233002803330002023400090234001702340028033400020235000902350017023500280335,
  0x0003022f0006022f000a022f000f022f0018022f001f022f0029022f0038032f0003023300060233000a0233000f023300180233001f02330029023300380333,
  0x0003023400060234000a0234000f023400180234001f023400290234003803340003023500060235000a0235000f023500180235001f02350029023500380335,
  0x00020236000902360017023600280336000202370009023700170237002803370002023800090238001702380028033800020239000902390017023900280339,
  0x0003023600060236000a0236000f023600180236001f023600290236003803360003023700060237000a0237000f023700180237001f02370029023700380337,
  0x0003023800060238000a0238000f023800180238001f023800290238003803380003023900060239000a0239000f023900180239001f02390029023900380339,
  0x001a0000001b0000001d0000001e000000210000002200000024000000250000002b0000002e00000032000000350000003a0000003d00000041000000440100,
  0x0000033d000003410000035f00000362000003640000036600000367000003680000036c0000036d0000036e0000037000000372000003750026000000270000,
  0x0001023d0016033d00010241001603410001025f0016035f00010262001603620001026400160364000102660016036600010267001603670001026800160368,
  0x0002023d0009023d0017023d0028033d000202410009024100170241002803410002025f0009025f0017025f0028035f00020262000902620017026200280362,
  0x0003023d0006023d000a023d000f023d0018023d001f023d0029023d0038033d0003024100060241000a0241000f024100180241001f02410029024100380341,
  0x0003025f0006025f000a025f000f025f0018025f001f025f0029025f0038035f0003026200060262000a0262000f026200180262001f02620029026200380362,
  0x00020264000902640017026400280364000202660009026600170266002803660002026700090267001702670028036700020268000902680017026800280368,
  0x0003026400060264000a0264000f026400180264001f026400290264003803640003026600060266000a0266000f026600180266001f02660029026600380366,
  0x0003026700060267000a0267000f026700180267001f026700290267003803670003026800060268000a0268000f026800180268001f02680029026800380368,
  0x0001026c0016036c0001026d0016036d0001026e0016036e0001027000160370000102720016037200010275001603750000033a000003420000034300000344,
  0x0002026c0009026c0017026c0028036c0002026d0009026d0017026d0028036d0002026e0009026e0017026e0028036e00020270000902700017027000280370,
  0x0003026c0006026c000a026c000f026c0018026c001f026c0029026c0038036c0003026d0006026d000a026d000f026d0018026d001f026d0029026d0038036d,
  0x0003026e0006026e000a026e000f026e0018026e001f026e0029026e0038036e0003027000060270000a0270000f027000180270001f02700029027000380370,
  0x00020272000902720017027200280372000202750009027500170275002803750001023a0016033a000102420016034200010243001603430001024400160344,
  0x0003027200060272000a0272000f027200180272001f027200290272003803720003027500060275000a0275000f027500180275001f02750029027500380375,
  0x0002023a0009023a0017023a0028033a000202420009024200170242002803420002024300090243001702430028034300020244000902440017024400280344,
  0x0003023a0006023a000a023a000f023a0018023a001f023a0029023a0038033a0003024200060242000a0242000f024200180242001f02420029024200380342,
  0x0003024300060243000a0243000f024300180243001f024300290243003803430003024400060244000a0244000f024400180244001f02440029024400380344,
  0x002c0000002d0000002f00000030000000330000003400000036000000370000003b0000003c0000003e0000003f000000420000004300000045000000480100,
  0x00000345000003460000034700000348000003490000034a0000034b0000034c0000034d0000034e0000034f0000035000000351000003520000035300000354,
  0x000102450016034500010246001603460001024700160347000102480016034800010249001603490001024a0016034a0001024b0016034b0001024c0016034c,
  0x00020245000902450017024500280345000202460009024600170246002803460002024700090247001702470028034700020248000902480017024800280348,
  0x0003024500060245000a0245000f024500180245001f024500290245003803450003024600060246000a0246000f024600180246001f02460029024600380346,
  0x0003024700060247000a0247000f024700180247001f024700290247003803470003024800060248000a0248000f024800180248001f02480029024800380348,
  0x000202490009024900170249002803490002024a0009024a0017024a0028034a0002024b0009024b0017024b0028034b0002024c0009024c0017024c0028034c,
  0x0003024900060249000a0249000f024900180249001f024900290249003803490003024a0006024a000a024a000f024a0018024a001f024a0029024a0038034a,
  0x0003024b0006024b000a024b000f024b0018024b001f024b0029024b0038034b0003024c0006024c000a024c000f024c0018024c001f024c0029024c0038034c,
  0x0001024d0016034d0001024e0016034e0001024f0016034f00010250001603500001025100160351000102520016035200010253001603530001025400160354,
  0x0002024d0009024d0017024d0028034d0002024e0009024e0017024e0028034e0002024f0009024f0017024f0028034f00020250000902500017025000280350,
  0x0003024d0006024d000a024d000f024d0018024d001f024d0029024d0038034d0003024e0006024e000a024e000f024e0018024e001f024e0029024e0038034e,
  0x0003024f0006024f000a024f000f024f0018024f001f024f0029024f0038034f0003025000060250000a0250000f025000180250001f02500029025000380350,
  0x00020251000902510017025100280351000202520009025200170252002803520002025300090253001702530028035300020254000902540017025400280354,
  0x0003025100060251000a0251000f025100180251001f025100290251003803510003025200060252000a0252000f025200180252001f02520029025200380352,
  0x0003025300060253000a0253000f025300180253001f025300290253003803530003025400060254000a0254000f025400180254001f02540029025400380354,
  0x000003550000035600000357000003590000036a0000036b00000371000003760000037700000378000003790000037a004600000047000000490000004a0100,
  0x00010255001603550001025600160356000102570016035700010259001603590001026a0016036a0001026b0016036b00010271001603710001027600160376,
  0x00020255000902550017025500280355000202560009025600170256002803560002025700090257001702570028035700020259000902590017025900280359,
  0x0003025500060255000a0255000f025500180255001f025500290255003803550003025600060256000a0256000f025600180256001f02560029025600380356,
  0x0003025700060257000a0257000f025700180257001f025700290257003803570003025900060259000a0259000f025900180259001f02590029025900380359,
  0x0002026a0009026a0017026a0028036a0002026b0009026b0017026b0028036b0002027100090271001702710028037100020276000902760017027600280376,
  0x0003026a0006026a000a026a000f026a0018026a001f026a0029026a0038036a0003026b0006026b000a026b000f026b0018026b001f026b0029026b0038036b,
  0x0003027100060271000a0271000f027100180271001f027100290271003803710003027600060276000a0276000f027600180276001f02760029027600380376,
  0x0001027700160377000102780016037800010279001603790001027a0016037a000003260000032a0000032c0000033b000003580000035a004b0000004e0000,
  0x0002027700090277001702770028037700020278000902780017027800280378000202790009027900170279002803790002027a0009027a0017027a0028037a,
  0x0003027700060277000a0277000f027700180277001f027700290277003803770003027800060278000a0278000f027800180278001f02780029027800380378,
  0x0003027900060279000a0279000f027900180279001f027900290279003803790003027a0006027a000a027a000f027a0018027a001f027a0029027a0038037a,
  0x00010226001603260001022a0016032a0001022c0016032c0001023b0016033b00010258001603580001025a0016035a004c0000004d0000004f000000510000,
  0x000202260009022600170226002803260002022a0009022a0017022a0028032a0002022c0009022c0017022c0028032c0002023b0009023b0017023b0028033b,
  0x0003022600060226000a0226000f022600180226001f022600290226003803260003022a0006022a000a022a000f022a0018022a001f022a0029022a0038032a,
  0x0003022c0006022c000a022c000f022c0018022c001f022c0029022c0038032c0003023b0006023b000a023b000f023b0018023b001f023b0029023b0038033b,
  0x000202580009025800170258002803580002025a0009025a0017025a0028035a000003210000032200000328000003290000033f005000000052000000540000,
  0x0003025800060258000a0258000f025800180258001f025800290258003803580003025a0006025a000a025a000f025a0018025a001f025a0029025a0038035a,
  0x00010221001603210001022200160322000102280016032800010229001603290001023f0016033f000003270000032b0000037c005300000055000000580000,
  0x00020221000902210017022100280321000202220009022200170222002803220002022800090228001702280028032800020229000902290017022900280329,
  0x0003022100060221000a0221000f022100180221001f022100290221003803210003022200060222000a0222000f022200180222001f02220029022200380322,
  0x0003022800060228000a0228000f022800180228001f022800290228003803280003022900060229000a0229000f022900180229001f02290029022900380329,
  0x0002023f0009023f0017023f0028033f00010227001603270001022b0016032b0001027c0016037c000003230000033e005600000057000000590000005a0000,
  0x0003023f0006023f000a023f000f023f0018023f001f023f0029023f0038033f000202270009022700170227002803270002022b0009022b0017022b0028032b,
  0x0003022700060227000a0227000f022700180227001f022700290227003803270003022b0006022b000a022b000f022b0018022b001f022b0029022b0038032b,
  0x0002027c0009027c0017027c0028037c00010223001603230001023e0016033e0000030000000324000003400000035b0000035d0000037e005b0000005c0000,
  0x0003027c0006027c000a027c000f027c0018027c001f027c0029027c0038037c000202230009022300170223002803230002023e0009023e0017023e0028033e,
  0x0003022300060223000a0223000f022300180223001f022300290223003803230003023e0006023e000a023e000f023e0018023e001f023e0029023e0038033e,
  0x0001020000160300000102240016032400010240001603400001025b0016035b0001025d0016035d0001027e0016037e0000035e0000037d005d0000005e0000,
  0x0002020000090200001702000028030000020224000902240017022400280324000202400009024000170240002803400002025b0009025b0017025b0028035b,
  0x0003020000060200000a0200000f020000180200001f020000290200003803000003022400060224000a0224000f022400180224001f02240029022400380324,
  0x0003024000060240000a0240000f024000180240001f024000290240003803400003025b0006025b000a025b000f025b0018025b001f025b0029025b0038035b,
  0x0002025d0009025d0017025d0028035d0002027e0009027e0017027e0028037e0001025e0016035e0001027d0016037d0000033c000003600000037b005f0000,
  0x0003025d0006025d000a025d000f025d0018025d001f025d0029025d0038035d0003027e0006027e000a027e000f027e0018027e001f027e0029027e0038037e,
  0x0002025e0009025e0017025e0028035e0002027d0009027d0017027d0028037d0001023c0016033c00010260001603600001027b0016037b00600000006e0000,
  0x0003025e0006025e000a025e000f025e0018025e001f025e0029025e0038035e0003027d0006027d000a027d000f027d0018027d001f027d0029027d0038037d,
  0x0002023c0009023c0017023c0028033c000202600009026000170260002803600002027b0009027b0017027b0028037b0061000000650000006f000000850000,
  0x0003023c0006023c000a023c000f023c0018023c001f023c0029023c0038033c0003026000060260000a0260000f026000180260001f02600029026000380360,
  0x0003027b0006027b000a027b000f027b0018027b001f027b0029027b0038037b0062000000630000006600000069000000700000007700000086000000990000,
  0x0000035c000003c3000003d0006400000067000000680000006a0000006b0000007100000074000000780000007e000000870000008e0000009a000000a90000,
  0x0001025c0016035c000102c3001603c3000102d0001603d0000003800000038200000383000003a2000003b8000003c2000003e0000003e2006c0000006d0000,
  0x0002025c0009025c0017025c0028035c000202c3000902c3001702c3002803c3000202d0000902d0001702d0002803d000010280001603800001028200160382,
  0x0003025c0006025c000a025c000f025c0018025c001f025c0029025c0038035c000302c3000602c3000a02c3000f02c3001802c3001f02c3002902c3003803c3,
  0x000302d0000602d0000a02d0000f02d0001802d0001f02d0002902d0003803d00002028000090280001702800028038000020282000902820017028200280382,
  0x0003028000060280000a0280000f028000180280001f028000290280003803800003028200060282000a0282000f028200180282001f02820029028200380382,
  0x0001028300160383000102a2001603a2000102b8001603b8000102c2001603c2000102e0001603e0000102e2001603e200000399000003a1000003a7000003ac,
  0x00020283000902830017028300280383000202a2000902a2001702a2002803a2000202b8000902b8001702b8002803b8000202c2000902c2001702c2002803c2,
  0x0003028300060283000a0283000f028300180283001f02830029028300380383000302a2000602a2000a02a2000f02a2001802a2001f02a2002902a2003803a2,
  0x000302b8000602b8000a02b8000f02b8001802b8001f02b8002902b8003803b8000302c2000602c2000a02c2000f02c2001802c2001f02c2002902c2003803c2,
  0x000202e0000902e0001702e0002803e0000202e2000902e2001702e2002803e20001029900160399000102a1001603a1000102a7001603a7000102ac001603ac,
  0x000302e0000602e0000a02e0000f02e0001802e0001f02e0002902e0003803e0000302e2000602e2000a02e2000f02e2001802e2001f02e2002902e2003803e2,
  0x00020299000902990017029900280399000202a1000902a1001702a1002803a1000202a7000902a7001702a7002803a7000202ac000902ac001702ac002803ac,
  0x0003029900060299000a0299000f029900180299001f02990029029900380399000302a1000602a1000a02a1000f02a1001802a1001f02a1002902a1003803a1,
  0x000302a7000602a7000a02a7000f02a7001802a7001f02a7002902a7003803a7000302ac000602ac000a02ac000f02ac001802ac001f02ac002902ac003803ac,
  0x0072000000730000007500000076000000790000007b0000007f00000082000000880000008b0000008f000000920000009b000000a2000000aa000000b40000,
  0x000003b0000003b1000003b3000003d1000003d8000003d9000003e3000003e5000003e6007a0000007c0000007d000000800000008100000083000000840000,
  0x000102b0001603b0000102b1001603b1000102b3001603b3000102d1001603d1000102d8001603d8000102d9001603d9000102e3001603e3000102e5001603e5,
  0x000202b0000902b0001702b0002803b0000202b1000902b1001702b1002803b1000202b3000902b3001702b3002803b3000202d1000902d1001702d1002803d1,
  0x000302b0000602b0000a02b0000f02b0001802b0001f02b0002902b0003803b0000302b1000602b1000a02b1000f02b1001802b1001f02b1002902b1003803b1,
  0x000302b3000602b3000a02b3000f02b3001802b3001f02b3002902b3003803b3000302d1000602d1000a02d1000f02d1001802d1001f02d1002902d1003803d1,
  0x000202d8000902d8001702d8002803d8000202d9000902d9001702d9002803d9000202e3000902e3001702e3002803e3000202e5000902e5001702e5002803e5,
  0x000302d8000602d8000a02d8000f02d8001802d8001f02d8002902d8003803d8000302d9000602d9000a02d9000f02d9001802d9001f02d9002902d9003803d9,
  0x000302e3000602e3000a02e3000f02e3001802e3001f02e3002902e3003803e3000302e5000602e5000a02e5000f02e5001802e5001f02e5002902e5003803e5,
  0x000102e6001603e60000038100000384000003850000038600000388000003920000039a0000039c000003a0000003a3000003a4000003a9000003aa000003ad,
  0x000202e6000902e6001702e6002803e6000102810016038100010284001603840001028500160385000102860016038600010288001603880001029200160392,
  0x000302e6000602e6000a02e6000f02e6001802e6001f02e6002902e6003803e60002028100090281001702810028038100020284000902840017028400280384,
  0x0003028100060281000a0281000f028100180281001f028100290281003803810003028400060284000a0284000f028400180284001f02840029028400380384,
  0x00020285000902850017028500280385000202860009028600170286002803860002028800090288001702880028038800020292000902920017029200280392,
  0x0003028500060285000a0285000f028500180285001f028500290285003803850003028600060286000a0286000f028600180286001f02860029028600380386,
  0x0003028800060288000a0288000f028800180288001f028800290288003803880003029200060292000a0292000f029200180292001f02920029029200380392,
  0x0001029a0016039a0001029c0016039c000102a0001603a0000102a3001603a3000102a4001603a4000102a9001603a9000102aa001603aa000102ad001603ad,
  0x0002029a0009029a0017029a0028039a0002029c0009029c0017029c0028039c000202a0000902a0001702a0002803a0000202a3000902a3001702a3002803a3,
  0x0003029a0006029a000a029a000f029a0018029a001f029a0029029a0038039a0003029c0006029c000a029c000f029c0018029c001f029c0029029c0038039c,
  0x000302a0000602a0000a02a0000f02a0001802a0001f02a0002902a0003803a0000302a3000602a3000a02a3000f02a3001802a3001f02a3002902a3003803a3,
  0x000202a4000902a4001702a4002803a4000202a9000902a9001702a9002803a9000202aa000902aa001702aa002803aa000202ad000902ad001702ad002803ad,
  0x000302a4000602a4000a02a4000f02a4001802a4001f02a4002902a4003803a4000302a9000602a9000a02a9000f02a9001802a9001f02a9002902a9003803a9,
  0x000302aa000602aa000a02aa000f02aa001802aa001f02aa002902aa003803aa000302ad000602ad000a02ad000f02ad001802ad001f02ad002902ad003803ad,
  0x00890000008a0000008c0000008d000000900000009100000093000000960000009c0000009f000000a3000000a6000000ab000000ae000000b5000000be0000,
  0x000003b2000003b5000003b9000003ba000003bb000003bd000003be000003c4000003c6000003e4000003e8000003e900940000009500000097000000980000,
  0x000102b2001603b2000102b5001603b5000102b9001603b9000102ba001603ba000102bb001603bb000102bd001603bd000102be001603be000102c4001603c4,
  0x000202b2000902b2001702b2002803b2000202b5000902b5001702b5002803b5000202b9000902b9001702b9002803b9000202ba000902ba001702ba002803ba,
  0x000302b2000602b2000a02b2000f02b2001802b2001f02b2002902b2003803b2000302b5000602b5000a02b5000f02b5001802b5001f02b5002902b5003803b5,
  0x000302b9000602b9000a02b9000f02b9001802b9001f02b9002902b9003803b9000302ba000602ba000a02ba000f02ba001802ba001f02ba002902ba003803ba,
  0x000202bb000902bb001702bb002803bb000202bd000902bd001702bd002803bd000202be000902be001702be002803be000202c4000902c4001702c4002803c4,
  0x000302bb000602bb000a02bb000f02bb001802bb001f02bb002902bb003803bb000302bd000602bd000a02bd000f02bd001802bd001f02bd002902bd003803bd,
  0x000302be000602be000a02be000f02be001802be001f02be002902be003803be000302c4000602c4000a02c4000f02c4001802c4001f02c4002902c4003803c4,
  0x000102c6001603c6000102e4001603e4000102e8001603e8000102e9001603e90000030100000387000003890000038a0000038b0000038c0000038d0000038f,
  0x000202c6000902c6001702c6002803c6000202e4000902e4001702e4002803e4000202e8000902e8001702e8002803e8000202e9000902e9001702e9002803e9,
  0x000302c6000602c6000a02c6000f02c6001802c6001f02c6002902c6003803c6000302e4000602e4000a02e4000f02e4001802e4001f02e4002902e4003803e4,
  0x000302e8000602e8000a02e8000f02e8001802e8001f02e8002902e8003803e8000302e9000602e9000a02e9000f02e9001802e9001f02e9002902e9003803e9,
  0x0001020100160301000102870016038700010289001603890001028a0016038a0001028b0016038b0001028c0016038c0001028d0016038d0001028f0016038f,
  0x0002020100090201001702010028030100020287000902870017028700280387000202890009028900170289002803890002028a0009028a0017028a0028038a,
  0x0003020100060201000a0201000f020100180201001f020100290201003803010003028700060287000a0287000f028700180287001f02870029028700380387,
  0x0003028900060289000a0289000f028900180289001f028900290289003803890003028a0006028a000a028a000f028a0018028a001f028a0029028a0038038a,
  0x0002028b0009028b0017028b0028038b0002028c0009028c0017028c0028038c0002028d0009028d0017028d0028038d0002028f0009028f0017028f0028038f,
  0x0003028b0006028b000a028b000f028b0018028b001f028b0029028b0038038b0003028c0006028c000a028c000f028c0018028c001f028c0029028c0038038c,
  0x0003028d0006028d000a028d000f028d0018028d001f028d0029028d0038038d0003028f0006028f000a028f000f028f0018028f001f028f0029028f0038038f,
  0x009d0000009e000000a0000000a1000000a4000000a5000000a7000000a8000000ac000000ad000000af000000b1000000b6000000b9000000bf000000cf0000,
  0x00000393000003950000039600000397000003980000039b0000039d0000039e000003a5000003a6000003a8000003ae000003af000003b4000003b6000003b7,
  0x000102930016039300010295001603950001029600160396000102970016039700010298001603980001029b0016039b0001029d0016039d0001029e0016039e,
  0x00020293000902930017029300280393000202950009029500170295002803950002029600090296001702960028039600020297000902970017029700280397,
  0x0003029300060293000a0293000f029300180293001f029300290293003803930003029500060295000a0295000f029500180295001f02950029029500380395,
  0x0003029600060296000a0296000f029600180296001f029600290296003803960003029700060297000a0297000f029700180297001f02970029029700380397,
  0x000202980009029800170298002803980002029b0009029b0017029b0028039b0002029d0009029d0017029d0028039d0002029e0009029e0017029e0028039e,
  0x0003029800060298000a0298000f029800180298001f029800290298003803980003029b0006029b000a029b000f029b0018029b001f029b0029029b0038039b,
  0x0003029d0006029d000a029d000f029d0018029d001f029d0029029d0038039d0003029e0006029e000a029e000f029e0018029e001f029e0029029e0038039e,
  0x000102a5001603a5000102a6001603a6000102a8001603a8000102ae001603ae000102af001603af000102b4001603b4000102b6001603b6000102b7001603b7,
  0x000202a5000902a5001702a5002803a5000202a6000902a6001702a6002803a6000202a8000902a8001702a8002803a8000202ae000902ae001702ae002803ae,
  0x000302a5000602a5000a02a5000f02a5001802a5001f02a5002902a5003803a5000302a6000602a6000a02a6000f02a6001802a6001f02a6002902a6003803a6,
  0x000302a8000602a8000a02a8000f02a8001802a8001f02a8002902a8003803a8000302ae000602ae000a02ae000f02ae001802ae001f02ae002902ae003803ae,
  0x000202af000902af001702af002803af000202b4000902b4001702b4002803b4000202b6000902b6001702b6002803b6000202b7000902b7001702b7002803b7,
  0x000302af000602af000a02af000f02af001802af001f02af002902af003803af000302b4000602b4000a02b4000f02b4001802b4001f02b4002902b4003803b4,
  0x000302b6000602b6000a02b6000f02b6001802b6001f02b6002902b6003803b6000302b7000602b7000a02b7000f02b7001802b7001f02b7002902b7003803b7,
  0x000003bc000003bf000003c5000003e7000003ef00b0000000b2000000b3000000b7000000b8000000ba000000bb000000c0000000c7000000d0000000df0000,
  0x000102bc001603bc000102bf001603bf000102c5001603c5000102e7001603e7000102ef001603ef000003090000038e0000039000000391000003940000039f,
  0x000202bc000902bc001702bc002803bc000202bf000902bf001702bf002803bf000202c5000902c5001702c5002803c5000202e7000902e7001702e7002803e7,
  0x000302bc000602bc000a02bc000f02bc001802bc001f02bc002902bc003803bc000302bf000602bf000a02bf000f02bf001802bf001f02bf002902bf003803bf,
  0x000302c5000602c5000a02c5000f02c5001802c5001f02c5002902c5003803c5000302e7000602e7000a02e7000f02e7001802e7001f02e7002902e7003803e7,
  0x000202ef000902ef001702ef002803ef00010209001603090001028e0016038e0001029000160390000102910016039100010294001603940001029f0016039f,
  0x000302ef000602ef000a02ef000f02ef001802ef001f02ef002902ef003803ef000202090009020900170209002803090002028e0009028e0017028e0028038e,
  0x0003020900060209000a0209000f020900180209001f020900290209003803090003028e0006028e000a028e000f028e0018028e001f028e0029028e0038038e,
  0x0002029000090290001702900028039000020291000902910017029100280391000202940009029400170294002803940002029f0009029f0017029f0028039f,
  0x0003029000060290000a0290000f029000180290001f029000290290003803900003029100060291000a0291000f029100180291001f02910029029100380391,
  0x0003029400060294000a0294000f029400180294001f029400290294003803940003029f0006029f000a029f000f029f0018029f001f029f0029029f0038039f,
  0x000003ab000003ce000003d7000003e1000003ec000003ed00bc000000bd000000c1000000c4000000c8000000cb000000d1000000d8000000e0000000ee0000,
  0x000102ab001603ab000102ce001603ce000102d7001603d7000102e1001603e1000102ec001603ec000102ed001603ed000003c7000003cf000003ea000003eb,
  0x000202ab000902ab001702ab002803ab000202ce000902ce001702ce002803ce000202d7000902d7001702d7002803d7000202e1000902e1001702e1002803e1,
  0x000302ab000602ab000a02ab000f02ab001802ab001f02ab002902ab003803ab000302ce000602ce000a02ce000f02ce001802ce001f02ce002902ce003803ce,
  0x000302d7000602d7000a02d7000f02d7001802d7001f02d7002902d7003803d7000302e1000602e1000a02e1000f02e1001802e1001f02e1002902e1003803e1,
  0x000202ec000902ec001702ec002803ec000202ed000902ed001702ed002803ed000102c7001603c7000102cf001603cf000102ea001603ea000102eb001603eb,
  0x000302ec000602ec000a02ec000f02ec001802ec001f02ec002902ec003803ec000302ed000602ed000a02ed000f02ed001802ed001f02ed002902ed003803ed,
  0x000202c7000902c7001702c7002803c7000202cf000902cf001702cf002803cf000202ea000902ea001702ea002803ea000202eb000902eb001702eb002803eb,
  0x000302c7000602c7000a02c7000f02c7001802c7001f02c7002902c7003803c7000302cf000602cf000a02cf000f02cf001802cf001f02cf002902cf003803cf,
  0x000302ea000602ea000a02ea000f02ea001802ea001f02ea002902ea003803ea000302eb000602eb000a02eb000f02eb001802eb001f02eb002902eb003803eb,
  0x00c2000000c3000000c5000000c6000000c9000000ca000000cc000000cd000000d2000000d5000000d9000000dc000000e1000000e7000000ef000000f60000,
  0x000003c0000003c1000003c8000003c9000003ca000003cd000003d2000003d5000003da000003db000003ee000003f0000003f2000003f3000003ff00ce0000,
  0x000102c0001603c0000102c1001603c1000102c8001603c8000102c9001603c9000102ca001603ca000102cd001603cd000102d2001603d2000102d5001603d5,
  0x000202c0000902c0001702c0002803c0000202c1000902c1001702c1002803c1000202c8000902c8001702c8002803c8000202c9000902c9001702c9002803c9,
  0x000302c0000602c0000a02c0000f02c0001802c0001f02c0002902c0003803c0000302c1000602c1000a02c1000f02c1001802c1001f02c1002902c1003803c1,
  0x000302c8000602c8000a02c8000f02c8001802c8001f02c8002902c8003803c8000302c9000602c9000a02c9000f02c9001802c9001f02c9002902c9003803c9,
  0x000202ca000902ca001702ca002803ca000202cd000902cd001702cd002803cd000202d2000902d2001702d2002803d2000202d5000902d5001702d5002803d5,
  0x000302ca000602ca000a02ca000f02ca001802ca001f02ca002902ca003803ca000302cd000602cd000a02cd000f02cd001802cd001f02cd002902cd003803cd,
  0x000302d2000602d2000a02d2000f02d2001802d2001f02d2002902d2003803d2000302d5000602d5000a02d5000f02d5001802d5001f02d5002902d5003803d5,
  0x000102da001603da000102db001603db000102ee001603ee000102f0001603f0000102f2001603f2000102f3001603f3000102ff001603ff000003cb000003cc,
  0x000202da000902da001702da002803da000202db000902db001702db002803db000202ee000902ee001702ee002803ee000202f0000902f0001702f0002803f0,
  0x000302da000602da000a02da000f02da001802da001f02da002902da003803da000302db000602db000a02db000f02db001802db001f02db002902db003803db,
  0x000302ee000602ee000a02ee000f02ee001802ee001f02ee002902ee003803ee000302f0000602f0000a02f0000f02f0001802f0001f02f0002902f0003803f0,
  0x000202f2000902f2001702f2002803f2000202f3000902f3001702f3002803f3000202ff000902ff001702ff002803ff000102cb001603cb000102cc001603cc,
  0x000302f2000602f2000a02f2000f02f2001802f2001f02f2002902f2003803f2000302f3000602f3000a02f3000f02f3001802f3001f02f3002902f3003803f3,
  0x000302ff000602ff000a02ff000f02ff001802ff001f02ff002902ff003803ff000202cb000902cb001702cb002803cb000202cc000902cc001702cc002803cc,
  0x000302cb000602cb000a02cb000f02cb001802cb001f02cb002902cb003803cb000302cc000602cc000a02cc000f02cc001802cc001f02cc002902cc003803cc,
  0x00d3000000d4000000d6000000d7000000da000000db000000dd000000de000000e2000000e4000000e8000000eb000000f0000000f3000000f7000000fa0000,
  0x000003d3000003d4000003d6000003dd000003de000003df000003f1000003f4000003f5000003f6000003f7000003f8000003fa000003fb000003fc000003fd,
  0x000102d3001603d3000102d4001603d4000102d6001603d6000102dd001603dd000102de001603de000102df001603df000102f1001603f1000102f4001603f4,
  0x000202d3000902d3001702d3002803d3000202d4000902d4001702d4002803d4000202d6000902d6001702d6002803d6000202dd000902dd001702dd002803dd,
  0x000302d3000602d3000a02d3000f02d3001802d3001f02d3002902d3003803d3000302d4000602d4000a02d4000f02d4001802d4001f02d4002902d4003803d4,
  0x000302d6000602d6000a02d6000f02d6001802d6001f02d6002902d6003803d6000302dd000602dd000a02dd000f02dd001802dd001f02dd002902dd003803dd,
  0x000202de000902de001702de002803de000202df000902df001702df002803df000202f1000902f1001702f1002803f1000202f4000902f4001702f4002803f4,
  0x000302de000602de000a02de000f02de001802de001f02de002902de003803de000302df000602df000a02df000f02df001802df001f02df002902df003803df,
  0x000302f1000602f1000a02f1000f02f1001802f1001f02f1002902f1003803f1000302f4000602f4000a02f4000f02f4001802f4001f02f4002902f4003803f4,
  0x000102f5001603f5000102f6001603f6000102f7001603f7000102f8001603f8000102fa001603fa000102fb001603fb000102fc001603fc000102fd001603fd,
  0x000202f5000902f5001702f5002803f5000202f6000902f6001702f6002803f6000202f7000902f7001702f7002803f7000202f8000902f8001702f8002803f8,
  0x000302f5000602f5000a02f5000f02f5001802f5001f02f5002902f5003803f5000302f6000602f6000a02f6000f02f6001802f6001f02f6002902f6003803f6,
  0x000302f7000602f7000a02f7000f02f7001802f7001f02f7002902f7003803f7000302f8000602f8000a02f8000f02f8001802f8001f02f8002902f8003803f8,
  0x000202fa000902fa001702fa002803fa000202fb000902fb001702fb002803fb000202fc000902fc001702fc002803fc000202fd000902fd001702fd002803fd,
  0x000302fa000602fa000a02fa000f02fa001802fa001f02fa002902fa003803fa000302fb000602fb000a02fb000f02fb001802fb001f02fb002902fb003803fb,
  0x000302fc000602fc000a02fc000f02fc001802fc001f02fc002902fc003803fc000302fd000602fd000a02fd000f02fd001802fd001f02fd002902fd003803fd,
  0x000003fe00e3000000e5000000e6000000e9000000ea000000ec000000ed000000f1000000f2000000f4000000f5000000f8000000f9000000fb000000fc0000,
  0x000102fe001603fe000003020000030300000304000003050000030600000307000003080000030b0000030c0000030e0000030f000003100000031100000312,
  0x000202fe000902fe001702fe002803fe000102020016030200010203001603030001020400160304000102050016030500010206001603060001020700160307,
  0x000302fe000602fe000a02fe000f02fe001802fe001f02fe002902fe003803fe0002020200090202001702020028030200020203000902030017020300280303,
  0x0003020200060202000a0202000f020200180202001f020200290202003803020003020300060203000a0203000f020300180203001f02030029020300380303,
  0x00020204000902040017020400280304000202050009020500170205002803050002020600090206001702060028030600020207000902070017020700280307,
  0x0003020400060204000a0204000f020400180204001f020400290204003803040003020500060205000a0205000f020500180205001f02050029020500380305,
  0x0003020600060206000a0206000f020600180206001f020600290206003803060003020700060207000a0207000f020700180207001f02070029020700380307,
  0x00010208001603080001020b0016030b0001020c0016030c0001020e0016030e0001020f0016030f000102100016031000010211001603110001021200160312,
  0x000202080009020800170208002803080002020b0009020b0017020b0028030b0002020c0009020c0017020c0028030c0002020e0009020e0017020e0028030e,
  0x0003020800060208000a0208000f020800180208001f020800290208003803080003020b0006020b000a020b000f020b0018020b001f020b0029020b0038030b,
  0x0003020c0006020c000a020c000f020c0018020c001f020c0029020c0038030c0003020e0006020e000a020e000f020e0018020e001f020e0029020e0038030e,
  0x0002020f0009020f0017020f0028030f000202100009021000170210002803100002021100090211001702110028031100020212000902120017021200280312,
  0x0003020f0006020f000a020f000f020f0018020f001f020f0029020f0038030f0003021000060210000a0210000f021000180210001f02100029021000380310,
  0x0003021100060211000a0211000f021100180211001f021100290211003803110003021200060212000a0212000f021200180212001f02120029021200380312,
  0x0000031300000314000003150000031700000318000003190000031a0000031b0000031c0000031d0000031e0000031f0000037f000003dc000003f900fd0000,
  0x0001021300160313000102140016031400010215001603150001021700160317000102180016031800010219001603190001021a0016031a0001021b0016031b,
  0x00020213000902130017021300280313000202140009021400170214002803140002021500090215001702150028031500020217000902170017021700280317,
  0x0003021300060213000a0213000f021300180213001f021300290213003803130003021400060214000a0214000f021400180214001f02140029021400380314,
  0x0003021500060215000a0215000f021500180215001f021500290215003803150003021700060217000a0217000f021700180217001f02170029021700380317,
  0x00020218000902180017021800280318000202190009021900170219002803190002021a0009021a0017021a0028031a0002021b0009021b0017021b0028031b,
  0x0003021800060218000a0218000f021800180218001f021800290218003803180003021900060219000a0219000f021900180219001f02190029021900380319,
  0x0003021a0006021a000a021a000f021a0018021a001f021a0029021a0038031a0003021b0006021b000a021b000f021b0018021b001f021b0029021b0038031b,
  0x0001021c0016031c0001021d0016031d0001021e0016031e0001021f0016031f0001027f0016037f000102dc001603dc000102f9001603f900fe000000ff0000,
  0x0002021c0009021c0017021c0028031c0002021d0009021d0017021d0028031d0002021e0009021e0017021e0028031e0002021f0009021f0017021f0028031f,
  0x0003021c0006021c000a021c000f021c0018021c001f021c0029021c0038031c0003021d0006021d000a021d000f021d0018021d001f021d0029021d0038031d,
  0x0003021e0006021e000a021e000f021e0018021e001f021e0029021e0038031e0003021f0006021f000a021f000f021f0018021f001f021f0029021f0038031f,
  0x0002027f0009027f0017027f0028037f000202dc000902dc001702dc002803dc000202f9000902f9001702f9002803f90000030a0000030d0000031601000000,
  0x0003027f0006027f000a027f000f027f0018027f001f027f0029027f0038037f000302dc000602dc000a02dc000f02dc001802dc001f02dc002902dc003803dc,
  0x000302f9000602f9000a02f9000f02f9001802f9001f02f9002902f9003803f90001020a0016030a0001020d0016030d00010216001603160100000001000000,
  0x0002020a0009020a0017020a0028030a0002020d0009020d0017020d0028030d0002021600090216001702160028031601000000010000000100000001000000,
  0x0003020a0006020a000a020a000f020a0018020a001f020a0029020a0038030a0003020d0006020d000a020d000f020d0018020d001f020d0029020d0038030d,
  0x0003021600060216000a0216000f021600180216001f021600290216003803160100000001000000010000000100000001000000010000000100000001000000,
  0x01000000010000000100000001000000010000000100000001000000010000000100000001000000010000000100000001000000010000000100000001000000]

def huffmanNode (fstate half : Nat) : HuffmanNode :=
  let node := huffmanDecodeTable.getD fstate 0 / 2 ^ (32 * (15 - half))
  ⟨node / 2 ^ 16 % 2 ^ 16, node / 2 ^ 8 % 2 ^ 8, BitVec.ofNat 8 node⟩

def huffmanHalf (t : HuffmanNode × List Byte) (half : Nat) : HuffmanNode × List Byte :=
  let node := huffmanNode t.1.fstate half
  (node, if node.flags &&& HUFFMAN_FLAG_SYM ≠ 0 then t.2 ++ [node.sym] else t.2)

def huffmanByte (t : HuffmanNode × List Byte) (c : Byte) : HuffmanNode × List Byte :=
  huffmanHalf (huffmanHalf t (c.toNat / 16)) (c.toNat % 16)

/-- The symbols, all of which are written, and whether the string may end here. -/
def huffmanDecodeStr (src : List Byte) : List Byte × Bool :=
  let t := src.foldl huffmanByte (⟨0, HUFFMAN_FLAG_ACCEPTED, 0⟩, [])
  (t.2, t.1.flags &&& HUFFMAN_FLAG_ACCEPTED ≠ 0)

theorem huffmanHalf_length (t : HuffmanNode × List Byte) (half : Nat) : (huffmanHalf t half).2.length ≤ t.2.length + 1 := by
  unfold huffmanHalf
  dsimp only
  split <;> simp

theorem huffmanDecodeStr_length (src : List Byte) : (huffmanDecodeStr src).1.length ≤ 2 * src.length := by
  have hfold : ∀ (src : List Byte) (t : HuffmanNode × List Byte),
      (src.foldl huffmanByte t).2.length ≤ t.2.length + 2 * src.length := by
    intro src
    induction src with
    | nil => exact fun t => Nat.le_refl _
    | cons c src ih =>
      intro t
      have h1 := huffmanHalf_length t (c.toNat / 16)
      have h2 := huffmanHalf_length (huffmanHalf t (c.toNat / 16)) (c.toNat % 16)
      have h3 := ih (huffmanByte t c)
      rw [List.foldl_cons, List.length_cons]
      unfold huffmanByte at h3 ⊢
      omega
  have := hfold src (⟨0, HUFFMAN_FLAG_ACCEPTED, 0⟩, [])
  rw [List.length_nil, Nat.zero_add] at this
  exact this

end MoqLiveCast
