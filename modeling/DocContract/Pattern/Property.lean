import DocContract.Pattern.CharSet

/-!
# Properties of characters

The sets that a regular expression names by a property of their characters: general categories,
scripts, versions of the standard, the classes of grapheme, word and sentence boundaries, and the
properties that a character has or lacks. They are those of Unicode 16. What the standard derives
from other properties is derived here as well; the rest stands in tables.
-/

namespace DocContract

open Text

namespace CharSet

/-! ### Tables -/

/-- The ranges of code points that a table writes, from the code point `next` on. For each range a
table has the number of code points in front of it, from the end of the last range on, and the
number of its code points but one. The digits of a number are letters, the last of them a small one;
`high` is the value of the digits so far. -/
def rangesFrom (next high : Nat) (first? : Option Nat) : Text → List (Nat × Nat)
  | [] => []
  | c :: r =>
    if c.isUpper then rangesFrom next (26 * (high + (c.toNat - 'A'.toNat))) first? r
    else
      let n := high + (c.toNat - 'a'.toNat)
      match first? with
      | none => rangesFrom next 0 (some (next + n)) r
      | some first => (first, first + n) :: rangesFrom (first + n + 1) 0 none r

/-- The ranges of a table, which is written over several lines. -/
def tableRanges (table : List String) : List (Nat × Nat) :=
  rangesFrom 0 0 none (table.flatMap String.toList)

example : tableRanges ["CnzG", "ab"] = [(65, 90), (247, 248)] := by decide

/-- The set of a table. -/
def ofTable (table : List String) : CharSet := .listed (tableRanges table)

/-- A range in front of ascending ones, as one with the first of them where the two touch. -/
def joinRange (r : Nat × Nat) : List (Nat × Nat) → List (Nat × Nat)
  | [] => [r]
  | s :: rest => if s.1 ≤ r.2 + 1 then (r.1, max r.2 s.2) :: rest else r :: s :: rest

/-- The ranges in ascending order, with those that touch each other made one. -/
def joinRanges (ranges : List (Nat × Nat)) : List (Nat × Nat) :=
  (ranges.mergeSort fun a b => a.1 ≤ b.1).foldr joinRange []

private theorem mem_joinRange {r : Nat × Nat} {l : List (Nat × Nat)} {c : Char}
    (h : ∀ s ∈ l, r.1 ≤ s.1) : (listed (joinRange r l)).mem c = (listed (r :: l)).mem c := by
  cases l with
  | nil => rfl
  | cons s rest =>
    have hs : r.1 ≤ s.1 := h s List.mem_cons_self
    by_cases htouch : s.1 ≤ r.2 + 1
    · have hboth : (r.1 ≤ c.toNat ∧ c.toNat ≤ max r.2 s.2) ↔
          (r.1 ≤ c.toNat ∧ c.toNat ≤ r.2) ∨ (s.1 ≤ c.toNat ∧ c.toNat ≤ s.2) := by omega
      rw [joinRange, if_pos htouch, Bool.eq_iff_iff]
      simp only [mem, List.any_cons, Bool.or_eq_true, Bool.and_eq_true, decide_eq_true_eq, hboth,
        or_assoc]
    · rw [joinRange, if_neg htouch]

private theorem first_of_mem_joinRange {r s : Nat × Nat} {l : List (Nat × Nat)}
    (h : s ∈ joinRange r l) : s.1 = r.1 ∨ ∃ t ∈ l, s.1 = t.1 := by
  cases l with
  | nil => simp_all [joinRange]
  | cons t rest =>
    rw [joinRange] at h
    split at h
    · rcases List.mem_cons.mp h with rfl | hs
      · exact .inl rfl
      · exact .inr ⟨s, List.mem_cons_of_mem _ hs, rfl⟩
    · rcases List.mem_cons.mp h with rfl | hs
      · exact .inl rfl
      · exact .inr ⟨s, hs, rfl⟩

private theorem foldr_joinRange {l : List (Nat × Nat)} {c : Char}
    (h : l.Pairwise fun a b => a.1 ≤ b.1) :
    (listed (l.foldr joinRange [])).mem c = (listed l).mem c ∧
      ∀ s ∈ l.foldr joinRange [], ∃ t ∈ l, s.1 = t.1 := by
  induction l with
  | nil => simp
  | cons r l ih =>
    obtain ⟨hr, hl⟩ := List.pairwise_cons.mp h
    obtain ⟨hmem, hfirst⟩ := ih hl
    have hle : ∀ s ∈ l.foldr joinRange [], r.1 ≤ s.1 := fun s hs =>
      have ⟨t, ht, heq⟩ := hfirst s hs
      heq ▸ hr t ht
    refine ⟨?_, fun s hs => ?_⟩
    · rw [List.foldr_cons, mem_joinRange hle]
      simp only [mem, List.any_cons] at hmem ⊢
      rw [hmem]
    · rcases first_of_mem_joinRange hs with heq | ⟨t, ht, heq⟩
      · exact ⟨r, List.mem_cons_self, heq⟩
      · obtain ⟨u, hu, heq'⟩ := hfirst t ht
        exact ⟨u, List.mem_cons_of_mem _ hu, heq.trans heq'⟩

/-- Joining ranges keeps the characters that they list. -/
theorem mem_joinRanges (ranges : List (Nat × Nat)) (c : Char) :
    (listed (joinRanges ranges)).mem c = (listed ranges).mem c := by
  have hsorted := @List.pairwise_mergeSort (Nat × Nat) (fun a b => decide (a.1 ≤ b.1))
    (by simp only [decide_eq_true_eq]; omega)
    (by simp only [Bool.or_eq_true, decide_eq_true_eq]; omega) ranges
  simp only [decide_eq_true_eq] at hsorted
  rw [joinRanges, (foldr_joinRange hsorted).1]
  exact (List.mergeSort_perm ranges _).any_eq

/-- The row of a table with a name. -/
def row? {α : Type} (rows : List (List String × α)) (name : Text) : Option α :=
  (rows.find? fun row => row.1.any fun n => n.toList == name).map (·.2)

/-! ### General categories -/

/-- The general categories by their short names, without the decimal digits, which have a table of
their own, and without what is unassigned. -/
def categoryTables : List (List String × List String) :=
  [(["lu"], ["CnzDxwbgBhabababababababababababababababababababababababababababacabababababababacab",
     "ababababababababababababababababababababababbbabadbbabbbccdbbbcdbbbbababbbacabbbcbabbdahacac",
     "acabababababababacababababababababacacabcbababababababababababababababababababababababababab",
     "abababahbbbcabdbabababaLdabadaiagabcbabbbqbiBjaccdabababababababababababafacabbcByBwabababab",
     "ababababababababababababajabababababababababababababababababababababababababababbbababababab",
     "acababababababababababababababababababababababababababababababababababababababababababababab",
     "ababacBlEHdBlbafaBBuDhDGlagBqccMiabababababababababababababababababababababababababababababa",
     "bababababababababababababababababababababababababababababababababababababababababababababaja",
     "babababababababababababababababababababababababababababababababababababababababababababababa",
     "babajhifkhihiflabababaihCudmdmdmeldKcaeadccccadegabababdcdkbfaCjaDZgBvBwabccabababdbacaicbab",
     "abababababababababababababababababababababababababababababababababababababababababababababab",
     "abaiabaeaBTYjababababababababababababababababababababababatabababababababababababababaFfabab",
     "ababababadababababababababababababababababababababababababababababababakababbbabababaeabacab",
     "adababababababababababebebabababababababdbabbdafabababayaBHAhzBUzBnFgBjGakbobgbbCQcByGbvEGoB",
     "fBGJwBfBMMqzBazBazBaabbcacbcdbhBazBabbdchbgBbbbdbebadgBbzBazBazBazBazBazBeyBhyBhyBhyBhyBhaGN",
     "lBh"]),
   (["ll"], ["DtzCgaBpxbhbabababababababababababababababababababababababababababbbabababababababbb",
     "ababababababababababababababababababababababacababccabacadbeacadccacababacabbbacadabacbccgac",
     "acababababababababbbababababababababbcabadababababababababababababababababababababababababab",
     "ababababgcacbbaeababababCqbBaHlabadadcsaBbBibbdcbabababababababababababebacacbBzBvbababababa",
     "babababababababababababajababababababababababababababababababababababababababacababababababb",
     "babababababababababababababababababababababababababababababababababababababababababababababa",
     "babaBwBoEHbBqccBDgfDFuibaEnBrClmbBhDyabababababababababababababababababababababababababababa",
     "babababababababababababababababababababababababababababababababababababababababababababababa",
     "bibababababababababababababababababababababababababababababababababababababababababababababa",
     "babababiifkhihifkhihinchihihiebbgadcbbidcbihkcbbKoadbdaBbaeaeacbideaCbaEBbBvbadbbababaeabbbf",
     "fabababababababababababababababababababababababababababababababababababababababababababababa",
     "babababbhabaeamBlbafaBTWdababababababababababababababababababababababatababababababababababa",
     "bababaFfababababababcbabababababababababababababababababababababababababababababababhbabacab",
     "abababaeabacabcbabababababababababafafabababababababaeabacadabababababaBaadaBFpBqfihDbBEAigm",
     "eBOzzBVhBnFgBjFzkbobgbbCRbByEvvEGoBfBGJwBfBMMkzBagbrBazBadbabgbkBazBazBazBazBazBazBazBazBaBb",
     "BcybfBaybfBaybfBaybfBaybfbaCSyjbtgfDUdBh"]),
   (["lt"], ["RlacacaBmaLFhhihihmapaBva"]),
   (["lm"], ["BAmreloehabaFdafaSkaIwaGibKjbeaBfajadaGeaGlaBVoaExaVtaCPmaEdaXnaRwfGsCknaBiBkBAnanaq",
     "mEMxbJhaHjaSbaBrefaDtbDpcBQBuaBWcfKkaEkaBcbEriDcaxaEbcdbSbawaFhaEeavbDzdjaBFViaBtbCZofbBpbiC",
     "CxaBgaBJNsdTocBobVemCmbbaYGqdbgbbSGnCjHtgBKfaBRba"]),
   (["lo"], ["GoapaJwaedIaaBFvBaedBtBfbjBjbbDubaybkccaqabBdBdDklayBgvvBqyhkfxbfrBoChCbdasahjqoehcb",
     "cvbgbadddaqanbbcobkaifebcvbgbbbbbbBfdbatcqibcbvbgbbbedasapbxalhcbcvbgbbbedaBebbcparabfdcbddb",
     "babbdbdcdlwaCahbcbwbpdaBaccacbBeaehbcbwbjbedaBfbbbpbribcbBocaqafcicyffrdxbibacgCgBvbbmfChbba",
     "bebxbabjbbjacexdBgaClhbBjBbeElBquaqfeddadbhcemmaEjMqbdcgbabdcBobdcBgbdcgbabdcobCebdcCoBlpEjX",
     "vcqbzfCwghhrnsorombcpBzBoaCpBibCahecBhbafCrkBeBxBdcelBrezCcwjCaGuBurhCcBdnbkBrBaBjBpckBdEjdb",
     "fbbdaBPqdENvCdywjgbgbgbgbgbgbgbgVfaCbaeDhiabDleafBqbDprBfBwpTsJTnCmBFCebBRyCpBniKhepkbCoaBxC",
     "rGnaDzadgbcbdbwBdBzoBxCkfdabblBbkwzBchBuBtecikebBoxcbhupbfdadBxbadbcecabaybdkhaofcfcfjgbgFpB",
     "iBdQNrmweBwMNcObcEbCpabjbmbebabbbbbEdBhNysClcCbBolEmebFeEbjbBscBedfcfcfccBjlbzbsbbbocnBiEsOz",
     "BcdBwBvBfntbhgBlkBdcBjehEyCzDuBniBzDoBzmLyjvkhFwfcabBrbbdacwkwjBeCnsbbkvkzCsCdgbCmapdbcbBcBq",
     "BcdBcBjhbBbBbCbkvksnrEgCuHbBjBmdbaLsBpgbqcChBckaivBqrBuuBbwmCaCfbcanBsBgyBaBjBdacaiBidamBvod",
     "vabaBjrbytbClgbabdbobjhBuBmhcbcvbgbbbedasameBejbacabBlbazabaBsCasducBeBvubbaHcBuBpdBkBvuaChB",
     "qnaCtBaBlgHdBrIdhcachbbbxpabaDqhcBmqabaBcakBnhavalBttasCuHrBgBfibBkraBxBdEigbbbBlvazfbbbBfoa",
     "MpspabmbBhEuaDbBJlIwHnDXkDspBPfrfzFXqfWkKDdBdCPuVwhBerDarBdsBvBzufsQtBnPpCwfaGtJBziBVpBpjNGh",
     "LepaBdccaodiPfDKuEcfmdihjNBcaThBsBhaMjBdsBrSqBaIvBdcaTbgbdbbbobHoBZndbBabbbacabjbdbabagaeaba",
     "babcbbbacabababababbbacdbgbdbdbabjbqfcbebqGOaCLFbBgGDtgIncINpoLBkpXxDQwUvCFyHHyfGFf"]),
   (["mn"], ["BDoEhKpeKfBsbabbbbbaCukBwuqaDxgcfcbbdBjaBeBaDnkCgijaydbibcbeBrcChiBqxbBfCdabaeheadgk",
     "bBdaCgaediaubBaacbCfaebebccdaBebdalbCfaeebbeaubwfbaCgacabdiahblbBeaCjamaByadaCdabcfcbdhblbBd",
     "aCgacagafbubBcbCfbediaubBdaCuahcbaDmacgmhDuacilgCvbBbababaCdnbebbfkbBjjaDydbfbbcbzbecqdnacbg",
     "apaBBbcBKkcBdbBebBebCmbbgiackjaBtcbaEnbBiaEocebjagcIlbcaCgabgbabachgjcaBwnbpBxdBwabebafaBoim",
     "bBgdcbbcCeabbdabcCghcbFwcbmbgeagadbHqClBBsmeadlEOccFlaDsBfVidEdbBSQeaejBgbDcbKmadaeazbfaFvbB",
     "arnaBmhzkBucBwacdcbBnaCpfcbcbmaiaBvaBzabccbfbbaBqbiaJeacaeaBDZsaBCjpqpBLlaIsaFteCMgcbbfdBoce",
     "aGjbWbdCneMfbDbdCskBxdEtaCcoBpacbkcBxdcbhaCjcBkebhCkambCaikdcaDrccabbgacaGbadhvbCfbdaBlgdeCs",
     "fnababaobDhhccbaxaDgfbaebbbJedgbbbBbbDhhcabbEcabacfbaDxabacdbeJzibbJwbbaeaFodcbeaBgjBofcdiaj",
     "fccBumbbPqgbfbaDevcgbbbbEsfdabbbgbaCubdabaNjblbCaefabaxaHXtagoQYyldcDSaeChgBOiaCldDdaBDBkbGY",
     "zBtcwUycrhcgBedFscCYdCceBxiaoaweboCAigbqcgbbbeDwaGegOlaCjdTodJubBCigEfgBTCIvJf"]),
   (["mc"], ["DKtaCdaccidbbBybCgcgbcbkaBraCgcCoaCgciabbCbbCgabagbcbkaDybbbdcbckaBpcCjdCjbCgabecbbb",
     "jbBcaobCgcfcbckaBqbCxcghsbMsbClaGpbeagacbzbkccgvbcfcakcCLsaBeaEzahhbbNidccebbfIqbCgabajabbif",
     "FpaBwafabebbCjaBeaebcaCiaccbadbBwhibGpavaHHebBTLbbcaDkbBypFmbBvaBwbebccEgbcbyaBtabaEfacbfaJd",
     "bbbbbbaBLXjabaExaBtcebElaybChaBwcjbnaDpcdbbaGocBfbCgbbdcbccjakbDgchacabdbbbaDxcibdaEccgabdca",
     "JdcgdcaEjcibbaEfabbgaDzabbeaKbcjaJnfbbeacabaFmcideaDgaBdbCkaPraoaEcahacaIfeebbaNmbmaBwbibbaY",
     "YycFJgCcEabBKXnbgf"]),
   (["me"], ["BSqbIKqaCIgdbcBYOxc"]),
   (["nl"], ["IRucDYtBicdFMsaziocBSYljBIFgCaRsaiaFeeMEsEg"]),
   (["no"], ["GwbfaccDMrfOmfEqcFdgIjgriQrjBPltBRvjSmaCMvadfgjHqpBpaBByChDavYgBdCBhaBTcdFijBehboBgj",
     "BnoBSMifBHQnBsCndrbNdBaBkdBZghzgBniCxewfGebcpcBtCmiCabBecCxeEahyhBpgMsfNoBeGcjBqdEigFetOptBZ",
     "xbQoiBHnsBGtuBCPqgBEswBLYftmtEeyIBuiBJtCgbcbdCyBsboBLam"]),
   (["pc"], ["DraMBvbtaDGAobycJfa"]),
   (["pd"], ["BtaCAuaBzaFKjaBNpaDBdfFHxacaBfbeaBcaReataEhaCZWabBlakaGnaFLoaMga"]),
   (["ps"], ["BoaByaBfaFPeabaCUoaDPmadaBmaCdapaYkabaBeaBPuababababababaDcaBgababababaPoabababababa",
     "bababababaCmabaBhaBOvabababazasabababaQmababababadabababacaCZRtaIhaBdabababababababadarababa",
     "GoaByaBfadaca"]),
   (["pe"], ["BpaBzaBfaFPdabaCUoaDRdaCdapaYkabaBeaBPuababababababaDcaBgababababaPoabababababababab",
     "ababaCmabaBhaBOvabababaBsabababaQmababababadabababacbCZRqaIjaBdabababababababadarababaGoaBza",
     "Bfacaca"]),
   (["pi"], ["GpaLXkacbcazaFFsabaeacapada"]),
   (["pf"], ["HfaLWvadaBcaFFsabaeacapada"]),
   (["po"], ["BhcbccababbkbdbBbaCqafaobhaBBaaiaRyfBpaCcacacaBsbubbbnabcCwdDyaBrnIzcCcoBfaKbbkaFkaE",
     "qaEraPaamaOdaDmakbGmobaEiaCweebEhfGpaXoiBDtaEucCtbGbcbcBlfbdMbbIibEygbfGebkgBccEudCheCkbCmhl",
     "aBGcbihiicdccdkbabjEUcdbbEiaFnbeccacibbbacbkebjcdbabmccQmcCfaHhaBRYgbKjcDvakaElfOqdDibBocbaB",
     "xbBvaDtmqbEudEwbqbJpaBFCugcawaubcddcbdhcgabbFtcbccababbkbdbBbaBkacbPucZsaBwaPyaBCpaHraBfaKmi",
     "BmaEigCogDldBKqeBsdHhgEfbbdEwdBwbDbdeanabcDkfEdaLmbbbEkekbbaEaaJqwEbcBcmCyaFacJsaKecFzaDohDf",
     "cbeDpjIhaDreBqbYvbCwmGtaBRseEJcbWDvbFdaCneiaVgcLjdMpaBDBoaLIleEItaBHeb"]),
   (["sm"], ["BraqcCjabaBtaeaBlaBfaBDmaUhcJYhanaBncncFjaBnegaCqefbeacacahaBfbcabaBfKhBgbDmaBeyBofS",
     "bajaCchEhaMyecBekpJwFawCkeBfcJxBwucfDASqaBFsabcGiaqcCjabaFbagdFEfbCYEzazaBfazaBfazaBfazaBfaz",
     "aIUeb"]),
   (["sc"], ["BkaEvdBWjaEtaTebTebhaJlaKdaWjaDQpaDIiBgBZHvaBGMlaEeaFyaIlbdbMCsdCVXeaDRka"]),
   (["sk"], ["DqabaCtagaeadaUbdmnfgbabqEnaobBXiaIUmabclcncncnbGHobBSVrwjbDzbBLoaobBEKkqBIhabaGgaDO",
     "Lje"]),
   (["so"], ["GkacaeabaBLpaKgbExbHyakatbJnaTvaOjaFafbaFcaHzaBpaPbcpabccfuababaFdhbfbbfdHpbBCyjBBva",
     "BBuaGbBhNpjjiCChbbdbbkabbgfbababaealboabbbaCgbjecdbbbbbgbBecbbabBeKihetcgcDcbBdzBngCtwkDdCzw",
     "HabibCbiEgbJnBsBrCmJvTsBvvbgBmcBfbEaIvfNtbBuzbDkmIfBapeanbmavbgbMybejBgBljaqBelBdiapBfkBmpMh",
     "JToClBGUiCcBHhdkbbaWbcBFJapExaBtcSqadaebnbMbiCfqccbmdaBvBsCLubWtaESsaDGnheqBCNidfaBEUwaFVnJf",
     "qQtGaElCiJlkBmcChfcwbhBdeCivCndaHeDiBTxTrCddByhbnbbCOuaEHwaEzaBBtBreDvmocobobBkxGeCeBcnBreih",
     "bofFyJqfBBzeqdmdEoeDqgleapleCdijgBniBdclebCkNbmncmdjfCdhockgihFqbDn"]),
   (["zs"], ["BgaExaIHjaDPnkBkaBvaFXwa"]),
   (["zl"], ["MEqa"]),
   (["zp"], ["MEra"]),
   (["cc"], ["aBfDrBg"]),
   (["cf"], ["GraCAkfwaHkaBxaOubDcaFTjaDAqeBaeBxebjDGHjaJpcGIzapaNKkpBZQudHWxhBTKZmaBeDr"]),
   (["co"], ["DGVoJMdCAHXoDSYncDSYn"])]

/-- The ranges of a general category. -/
def categoryRanges (name : String) : List (Nat × Nat) :=
  if name == "nd" then digitRanges.toList
  else ((row? categoryTables name.toList).map tableRanges).getD []

/-- The union of some general categories. -/
def categories (names : List String) : CharSet :=
  .listed (joinRanges (names.flatMap categoryRanges))

/-- A union of categories holds the characters of each of them. -/
theorem mem_categories (names : List String) (c : Char) :
    (categories names).mem c = names.any fun n => (listed (categoryRanges n)).mem c := by
  rw [categories, mem_joinRanges]
  simp only [mem, List.any_flatMap]

/-- The letters. -/
def letters : CharSet := categories ["lu", "ll", "lt", "lm", "lo"]

/-- The code points that have a general category. -/
def assigned : CharSet :=
  categories ["lu", "ll", "lt", "lm", "lo", "mn", "mc", "me", "nd", "nl", "no", "pc", "pd", "ps",
    "pe", "pi", "pf", "po", "sm", "sc", "sk", "so", "zs", "zl", "zp", "cc", "cf", "co"]

/-- The code points that have none. -/
def unassigned : CharSet := .complement assigned

/-- The general categories by their names. Surrogates are no characters and have no name here. -/
def categoryNames : List (List String × CharSet) :=
  [(["any"], .any), (["ascii"], .range '\x00' '\x7f'), (["assigned"], assigned),
   (["c", "other"], .union (categories ["cc", "cf", "co"]) unassigned),
   (["cc", "cntrl", "control"], categories ["cc"]), (["cf", "format"], categories ["cf"]),
   (["cn", "unassigned"], unassigned), (["co", "privateuse"], categories ["co"]),
   (["l", "letter"], letters), (["lc", "casedletter"], categories ["lu", "ll", "lt"]),
   (["ll", "lowercaseletter"], categories ["ll"]), (["lm", "modifierletter"], categories ["lm"]),
   (["lo", "otherletter"], categories ["lo"]), (["lt", "titlecaseletter"], categories ["lt"]),
   (["lu", "uppercaseletter"], categories ["lu"]),
   (["m", "combiningmark", "mark"], categories ["mn", "mc", "me"]),
   (["mc", "spacingmark"], categories ["mc"]), (["me", "enclosingmark"], categories ["me"]),
   (["mn", "nonspacingmark"], categories ["mn"]),
   (["n", "number"], categories ["nd", "nl", "no"]),
   (["nd", "decimalnumber", "digit"], categories ["nd"]),
   (["nl", "letternumber"], categories ["nl"]), (["no", "othernumber"], categories ["no"]),
   (["p", "punct", "punctuation"],
    categories ["pc", "pd", "ps", "pe", "pi", "pf", "po"]),
   (["pc", "connectorpunctuation"], categories ["pc"]),
   (["pd", "dashpunctuation"], categories ["pd"]), (["pe", "closepunctuation"], categories ["pe"]),
   (["pf", "finalpunctuation"], categories ["pf"]),
   (["pi", "initialpunctuation"], categories ["pi"]),
   (["po", "otherpunctuation"], categories ["po"]), (["ps", "openpunctuation"], categories ["ps"]),
   (["s", "symbol"], categories ["sm", "sc", "sk", "so"]),
   (["sc", "currencysymbol"], categories ["sc"]), (["sk", "modifiersymbol"], categories ["sk"]),
   (["sm", "mathsymbol"], categories ["sm"]), (["so", "othersymbol"], categories ["so"]),
   (["z", "separator"], categories ["zs", "zl", "zp"]),
   (["zl", "lineseparator"], categories ["zl"]), (["zp", "paragraphseparator"], categories ["zp"]),
   (["zs", "spaceseparator"], categories ["zs"])]

/-! ### Scripts and versions -/

/-- The scripts by their names. -/
def scriptTables : List (List String × List String) :=
  [(["adlm", "adlam"], ["HDEuCxejeb"]),
   (["ahom"], ["EBRcBacoew"]),
   (["hluw", "anatolianhieroglyphs"], ["ESSeWk"]),
   (["arab", "arabic"], ["CHcebfbnbcbBfbjlzbEdbBhDcBvJgBebbfCwbBcDNTwEkqNycDbcCbhaBgpEiebFeFVnBeCp",
     "cCddDGLsdbBabbbacabjbdbabagaeabababcbbbacabababababbbacdbgbdbdbabjbqfcbebqCab"]),
   (["armn", "armenian"], ["BZdBlcBxccDOZje"]),
   (["avst", "avestan"], ["DXCyCbdg"]),
   (["bali", "balinese"], ["KFwCybBx"]),
   (["bamu", "bamum"], ["CLCqDjCVCqVw"]),
   (["bass", "bassavah"], ["FHKiBdcf"]),
   (["batk", "batak"], ["KNgBzid"]),
   (["beng", "bengali"], ["DPodbhcbcvbgbaddcicbcdiaebbecy"]),
   (["bhks", "bhaiksuki"], ["EDOiibBsbnkBc"]),
   (["bopo", "bopomofo"], ["BCsbRLxBqEiBf"]),
   (["brah", "brahmi"], ["DZAeCzeBjja"]),
   (["brai", "braille"], ["PDwJv"]),
   (["bugi", "buginese"], ["JWaBbcb"]),
   (["buhd", "buhid"], ["IUyt"]),
   (["cans", "canadianaboriginal"], ["HOyYpVoCrDTPqp"]),
   (["cari", "carian"], ["DTYmBw"]),
   (["aghb", "caucasianalbanian"], ["DUXsBzla"]),
   (["cakm", "chakma"], ["DZKaCabr"]),
   (["cham"], ["CMJwCcjncjcd"]),
   (["cher", "cherokee"], ["HLgDhcfCFJeDb"]),
   (["chrs", "chorasmian"], ["DYXcBb"]),
   (["zyyy", "common"], ["aCmBafBaBubobexaBfaRhBmfectEmajagabaYnagaoadaBgaGaaTwaEzbBVtaPpdLeaCGlcC",
     "tbHvbbaBVhanahdbfbccaBDtlcDibkdkborBgClBlbccfbBabqBpceZpwkvBJrJwYdcBfbEaTsDpPmubabyphedDnbda",
     "DmbFrpBgBljaBwClBfDcBvaDkGlJToClBHSiBhDycGjjJkaGeaPfaobBEZqbIajwBibsbdFrabBfBafBakkaBtbCmgbg",
     "keJyceBsdiDcmBzBsIuBaCSHwdFVgJpgQtGaElCiJlkBmcCjdqibhBdeCiIftmtmDijyFfDgbCsbbcacbcdblbabgbCm",
     "bdchbgbBbbdbebadgbNbcLfcBxHThCpCyCiBBeBreDvmocobobBkkGrCezbbnBreihbofFyBLveqdmdEoeDqgleapleC",
     "dijgBniBdclebCkNbmncmdjfCdhockgihFqbDxBSUXbaBeDr"]),
   (["copt", "coptic", "qaac"], ["BMgnPJkElfg"]),
   (["xsux", "cuneiform"], ["EFBsBJlDyEgbelHn"]),
   (["cprt", "cypriot"], ["DVZkfcabBrbbdaca"]),
   (["cpmn", "cyprominoan"], ["EKYyDu"]),
   (["cyrl", "cyrillic"], ["BNkFccGmIVokGeaCyaGFnBfBTOaDrBHEcbDHPgCjBha"]),
   (["dsrt", "deseret"], ["DUMaDb"]),
   (["deva", "devanagari"], ["DKqDceoczCIJgBfBREmj"]),
   (["diak", "divesakuru"], ["ECKugcachbbbBdbbcljj"]),
   (["dogr", "dogra"], ["ECAyCh"]),
   (["dupl", "duployan"], ["GMDsEcfmdihjcd"]),
   (["egyp", "egyptianhieroglyphs"], ["ELDgBQrkFXq"]),
   (["elba", "elbasan"], ["DUVwBn"]),
   (["elym", "elymaic"], ["DYYyw"]),
   (["ethi", "ethiopic"], ["GVgCubdcgbabdcBobdcBgbdcgbabdcobCebdcCocBfdzJVawjgbgbgbgbgbgbgbgBVKcfc",
     "fcfjgbgEPYfgbdbbbo"]),
   (["gara", "garay"], ["DXZcBldBcib"]),
   (["geor", "georgian"], ["GHsBlbafacBqbdEJwBqccGEaBlbafa"]),
   (["glag", "glagolitic"], ["QRgDrGIZggbqcgbbbe"]),
   (["goth", "gothic"], ["DUEaBa"]),
   (["gran", "grantha"], ["EADsdbhcbcvbgbbbecicbcccagafgcgde"]),
   (["grek", "greek"], ["BHwdbccdbaeababcbabtbCkopJNqeByeeeDgaMivcfcBlcfchbabababBecCabobncfbsccbi",
     "LjaCAJeaBGNiDaraDAXrCr"]),
   (["gujr", "gujarati"], ["DZlcbibcbvbgbbbecjbcbccapdclhg"]),
   (["gong", "gunjalagondi"], ["EEBwfbbbBkbbbfhj"]),
   (["guru", "gurmukhi"], ["DUncbfebcvbgbbbbbbcabeebccdahdbahq"]),
   (["gukh", "gurungkhema"], ["FDRsCf"]),
   (["hani", "han"], ["RPwzbDkmIfBvabaziodBLcJTnCmBFBjBHSiObcEbBSIibmbCCOkCLFbBgGDtgIncINpoLBkpXxD",
     "QwUvCFyHHyfGFf"]),
   (["hang", "hangul"], ["GLkJvLLebJxDpEjBeCnBeBTAnBcYtQNrmweBwPAiBedfcfcfcc"]),
   (["rohg", "hanifirohingya"], ["DXWqBnij"]),
   (["hano", "hanunoo"], ["ITsu"]),
   (["hatr", "hatran"], ["DWIasbbfe"]),
   (["hebr", "hebrew"], ["CCvCciBaefDOVwzbebabbbbbj"]),
   (["hira", "hiragana"], ["SHdDhgcFPEvLasaBdcYMva"]),
   (["armi", "imperialaramaic"], ["DWBwvbi"]),
   (["zinh", "inherited", "qaai"], ["BDoEhKrbRkkBaaBCidGOxBeTtcbmbgeagadbHqClUebHmBgFTxdEdbCZUjpqn",
     "BLnaIsaGFaaCTCuBtcwUycrhcgBedBTLHiJf"]),
   (["phli", "inscriptionalpahlavi"], ["DXGqsfh"]),
   (["prti", "inscriptionalparthian"], ["DXFkvch"]),
   (["java", "javanese"], ["CMEyCzcjeb"]),
   (["kthi", "kaithi"], ["DZFcCoka"]),
   (["knda", "kannada"], ["ETcmbcbwbjbecibcbdhbgbbdcjbc"]),
   (["kana", "katakana"], ["SKvDlccJgpIaBubDjCZHejbBsCOUcdbgbbbaLbcByaod"]),
   (["kawi"], ["EERwqbBodBc"]),
   (["kali", "kayahli"], ["CMAaBtba"]),
   (["khar", "kharoshthi"], ["DWTcdbbfhbcbBcccejhi"]),
   (["kits", "khitansmallscript"], ["FJIiaKGxSbBpa"]),
   (["khmr", "khmer"], ["IXkDpcjgjSsBf"]),
   (["khoj", "khojki"], ["DZTwrbBu"]),
   (["sind", "khudawadi"], ["EAAqCgfj"]),
   (["krai", "kiratrai"], ["FIIiCf"]),
   (["laoo", "lao"], ["FMvbbabebxbabwcebabgbjcd"]),
   (["latn", "latin"], ["CnzgzBvapafwbBebRgBneJXbBlgBwfdfmbCrCnJvOfanaqmFlbgaBbarBoECtBfBULmDxdCoc",
     "bbabhvnBFkBqbibdBEDqgBOkzgzDCffbBpbiDDNpBegf"]),
   (["lepc", "lepcha"], ["KPsCddodc"]),
   (["limb", "limbu"], ["JMeBebleleadl"]),
   (["lina", "lineara"], ["DVFsLyjvkh"]),
   (["linb", "linearb"], ["DSYqlbzbsbbbocnBiEs"]),
   (["lisu"], ["CKKuBvBUMaa"]),
   (["lyci", "lycian"], ["DTXgBc"]),
   (["lydi", "lydian"], ["DWKmzfa"]),
   (["mahj", "mahajani"], ["DZNcBm"]),
   (["maka", "makasar"], ["EEQqy"]),
   (["mlym", "malayalam"], ["EYambcbBybcbfepcz"]),
   (["mand", "mandaic"], ["DDgBbca"]),
   (["mani", "manichaean"], ["DXAmBmel"]),
   (["marc", "marchen"], ["EDSqBfcvbn"]),
   (["gonm", "masaramgondi"], ["EDYegbbbBrdabbbiij"]),
   (["medf", "medefaidrin"], ["FISeDm"]),
   (["mtei", "meeteimayek"], ["CMSmwHtBtcj"]),
   (["mend", "mendekikakui"], ["HCUyHocp"]),
   (["merc", "meroiticcursive"], ["DWPkxetcBt"]),
   (["mero", "meroitichieroglyphs"], ["DWOeBf"]),
   (["plrd", "miao"], ["FIZoCweCehq"]),
   (["modi"], ["EBHgCqlj"]),
   (["mong", "mongolian"], ["JCibcabtgDkhBqDSCbm"]),
   (["mroo", "mro"], ["FHEuBebjeb"]),
   (["mult", "multani"], ["DZYugbabdbobk"]),
   (["mymr", "myanmar"], ["GBoGdCGAyBeDtBfBPAmt"]),
   (["nbat", "nabataean"], ["DWEiBeii"]),
   (["nagm", "nagmundari"], ["HBPoBp"]),
   (["nand", "nandinagari"], ["ECQyhcBtck"]),
   (["talu", "newtailue"], ["JRcBrezgkdb"]),
   (["newa"], ["EANoDnbe"]),
   (["nkoo", "nko"], ["CYiCgcc"]),
   (["nshu", "nushu"], ["FJIfaYVmPf"]),
   (["hmnp", "nyiakengpuachuehmong"], ["HAEaBsdncjeb"]),
   (["ogam", "ogham"], ["INoBc"]),
   (["olck", "olchiki"], ["KSuBv"]),
   (["onao", "olonal"], ["HBZkBqea"]),
   (["hung", "oldhungarian"], ["DXRsBynByhf"]),
   (["ital", "olditalic"], ["DUCeBjjc"]),
   (["narb", "oldnortharabian"], ["DWYaBf"]),
   (["perm", "oldpermic"], ["DUFgBq"]),
   (["xpeo", "oldpersian"], ["DUIiBjen"]),
   (["sogo", "oldsogdian"], ["DYQiBn"]),
   (["sarb", "oldsoutharabian"], ["DWWuBf"]),
   (["orkh", "oldturkic"], ["DXMuCu"]),
   (["ougr", "olduyghur"], ["DYUqz"]),
   (["orya", "oriya"], ["EEjcbhcbcvbgbbbecicbcchcebbecr"]),
   (["osge", "osage"], ["DUSuBjeBj"]),
   (["osma", "osmanya"], ["DUQyBdcj"]),
   (["hmng", "pahawhhmong"], ["FHMeCrkjbgbufs"]),
   (["palm", "palmyrene"], ["DWDcBf"]),
   (["pauc", "paucinhau"], ["EDCaCe"]),
   (["phag", "phagspa"], ["CLSqCd"]),
   (["phnx", "phoenician"], ["DWJgBbda"]),
   (["phlp", "psalterpahlavi"], ["DXHwrhdmg"]),
   (["rjng", "rejang"], ["CMBwBjla"]),
   (["runr", "runic"], ["IOuCwdk"]),
   (["samr", "samaritan"], ["DAuBtco"]),
   (["saur", "saurashtra"], ["CLVcCril"]),
   (["shrd", "sharada"], ["DZOyDr"]),
   (["shaw", "shavian"], ["DUPcBv"]),
   (["sidd", "siddham"], ["EBCiCbcBl"]),
   (["sgnw", "signwriting"], ["GWTkZbpebo"]),
   (["sinh", "sinhala"], ["FCzcbrdxbibacgdaefbabhgjccDULgt"]),
   (["sogd", "sogdian"], ["DYSeBp"]),
   (["sora", "sorasompeng"], ["DZIeyhj"]),
   (["soyo", "soyombo"], ["ECXsDe"]),
   (["sund", "sundanese"], ["KKuClJwh"]),
   (["sunu", "sunuwar"], ["EDLwBhoj"]),
   (["sylo", "sylotinagri"], ["CLQeBs"]),
   (["syrc", "syriac"], ["CQynbChccKmk"]),
   (["tglg", "tagalog"], ["ISmvja"]),
   (["tagb", "tagbanwa"], ["IWembcbb"]),
   (["tale", "taile"], ["JPgBdce"]),
   (["lana", "taitham"], ["JXgCkbBcckgjgn"]),
   (["tavt", "taiviet"], ["CMOuCoye"]),
   (["takr", "takri"], ["EBMeCfgj"]),
   (["taml", "tamil"], ["EJibbfdcbddbbabbdbdcdleedcbdcagaouEALhBxna"]),
   (["tnsa", "tangsa"], ["FHGqDabj"]),
   (["tang", "tangut"], ["FJIeaBfJBziBDnTsi"]),
   (["telu", "telugu"], ["EOembcbwbpcibcbdhbbccacdcjhi"]),
   (["thaa", "thaana"], ["CVwBx"]),
   (["thai"], ["FHxCffBb"]),
   (["tibt", "tibetan"], ["FRsCtbBjeBmbBjbobgeb"]),
   (["tfng", "tifinagh"], ["RCyCdhboa"]),
   (["tirh", "tirhuta"], ["EASmCtij"]),
   (["todr", "todhri"], ["DVDgBz"]),
   (["toto"], ["HATkBe"]),
   (["tutg", "tulutigalari"], ["EAIqjbacabBlbjbacabdbjbbib"]),
   (["ugar", "ugaritic"], ["DUHcBdba"]),
   (["vaii", "vai"], ["CKMqLn"]),
   (["vith", "vithkuqi"], ["DVAekbobgbbbkbobgbb"]),
   (["wcho", "wancho"], ["HAVgCffa"]),
   (["wara", "warangciti"], ["ECHcDema"]),
   (["yezi", "yezidi"], ["DYLkBpbccb"]),
   (["yiii", "yi"], ["CIPkBSudCc"]),
   (["zanb", "zanabazarsquare"], ["ECUqCt"])]

/-- What is used with a script and belongs to another one or to none. -/
def extensionTables : List (List String × List String) :=
  [(["adlm"], ["CIhaBgaJWoaFHha"]),
   (["arab"], ["CHoaoadaBgakkBaaJUsaFHhaDAKabCDkBb"]),
   (["armn"], ["BDwa"]),
   (["avst"], ["HbaRFsb"]),
   (["beng"], ["BAyaCMubrbHJeabacbbaiaiacaeaccCBAfa"]),
   (["bopo"], ["BBjabcnaRCpcejbmkdcagaHnaCZThbKwe"]),
   (["bugi"], ["CMHza"]),
   (["buhd"], ["IUnb"]),
   (["cari"], ["HbaLZmacaFGda"]),
   (["aghb"], ["BDsaBsaBsa"]),
   (["cakm"], ["DTmjCKej"]),
   (["cher"], ["BDocbagbwblb"]),
   (["copt"], ["HbaWmadbbaEebQDtaDCPcBb"]),
   (["cprt"], ["DTImceBsdi"]),
   (["cpmn"], ["DTImb"]),
   (["cyrl"], ["BAyaCpcbababacafaOhbJQnaGEka"]),
   (["deva"], ["BAyaCMubrbHJeBmbbBNaaBZFrj"]),
   (["dogr"], ["DOmlCIDcj"]),
   (["dupl"], ["HbaWtbbaybQIhaFUWpd"]),
   (["elba"], ["HbaWra"]),
   (["ethi"], ["BEca"]),
   (["gara"], ["CHoaoada"]),
   (["geor"], ["HbaBVlaEIraFViaFGga"]),
   (["glag"], ["HbaWpabaOsacaJxaEIraFViaFGyaBTNfa"]),
   (["goth"], ["HbaWqbcaBoa"]),
   (["gran"], ["DNtbrbYqnGKaabbBecdbBNaaDNTqaETwbba"]),
   (["grek"], ["HbaWmbcababakaBuacaBuaJYxbZra"]),
   (["gujr"], ["DNtbrbCIDmj"]),
   (["gong"], ["HbaDHkb"]),
   (["guru"], ["DNtbrbCIDmj"]),
   (["gukh"], ["DOna"]),
   (["hani"], ["HbaRWypbccabjbmkdcagaedHfaFspBgBljaBwBnCeBwplBzaDkykeDsBeBROjhBHAzbKweDCHerLRyb"]),
   (["hang"], ["SErcejbmqagaHnaCZThbKwe"]),
   (["rohg"], ["CHoaoadaBgaFra"]),
   (["hano"], ["IUnb"]),
   (["hebr"], ["BDvb"]),
   (["hira"], ["SErcejbmqfbaebDnddaDmbCZTgbKwekaBtb"]),
   (["java"], ["CMHza"]),
   (["kthi"], ["DOojNXxaBUFej"]),
   (["knda"], ["DNtbrbHJeabbgaxabaCASxf"]),
   (["kana"], ["BDtaBdaQZtcejbmqfbaebDnddaDmbCZTgbKwekaBtb"]),
   (["kali"], ["CMBua"]),
   (["khoj"], ["EDijCHOij"]),
   (["sind"], ["DOmbCIDmj"]),
   (["latn"], ["HbaTwakabcbajabaBmobbbapchbbbBmafaemKrbBVebCXkaEXwaVuaHkaEZmaBTUmhVea"]),
   (["limb"], ["DOna"]),
   (["lina"], ["DTItBs"]),
   (["linb"], ["DTImceBsdi"]),
   (["lisu"], ["BAyaqaRDkb"]),
   (["lyci"], ["MGoa"]),
   (["lydi"], ["HbaRFta"]),
   (["mahj"], ["HbaDHklCIDcj"]),
   (["mlym"], ["DNtbrbHJoaxaCASzc"]),
   (["mand"], ["CJoa"]),
   (["mani"], ["CJoa"]),
   (["gonm"], ["DOmb"]),
   (["mero"], ["MGra"]),
   (["modi"], ["CLSaj"]),
   (["mong"], ["JCkbbaDCjaFZtbfd"]),
   (["mult"], ["DYkj"]),
   (["mymr"], ["CMBua"]),
   (["nand"], ["DNtasbBImjGBhaiahaCASrf"]),
   (["newa"], ["DNtbHKcabbjagababa"]),
   (["nkoo"], ["CHoaoadaDPPeb"]),
   (["onao"], ["DOmb"]),
   (["hung"], ["MGoacaFGdapa"]),
   (["perm"], ["HbaWmafckaOda"]),
   (["orkh"], ["MGoaFGfa"]),
   (["ougr"], ["CJoaDUSva"]),
   (["orya"], ["DNtbrbHJoaxa"]),
   (["osge"], ["BDpacagaCya"]),
   (["phag"], ["JCkbbaDCjaFZua"]),
   (["phlp"], ["CJoa"]),
   (["runr"], ["IRrc"]),
   (["samr"], ["RMva"]),
   (["shrd"], ["DNtaHKfabacbcajacaCATefca"]),
   (["shaw"], ["Hba"]),
   (["sinh"], ["DOmbHKma"]),
   (["sogd"], ["CJoa"]),
   (["sunu"], ["BDobbajacaBcada"]),
   (["sylo"], ["DOmbEyj"]),
   (["syrc"], ["BDrbcbbaychbbbBCcaobcaBgakkBaaIXraba"]),
   (["tglg"], ["IUnb"]),
   (["tagb"], ["IUnb"]),
   (["tale"], ["BDobfbdaEZzj"]),
   (["takr"], ["DOmbCIDmj"]),
   (["taml"], ["DNtbrbHJoaCBBkaBOEfabaCdb"]),
   (["tang"], ["SEapTba"]),
   (["telu"], ["DNtbrbHJjbbabaxa"]),
   (["thaa"], ["CHoaobcaCmjDPTgaka"]),
   (["thai"], ["BAyaBaaBraBta"]),
   (["tibt"], ["SEyd"]),
   (["tfng"], ["BDqababdza"]),
   (["tirh"], ["DNtbrbHJjamapaCASzj"]),
   (["todr"], ["BDpacacajabaCwa"]),
   (["toto"], ["BAya"]),
   (["tutg"], ["EXajGBqabaCASxfHfa"]),
   (["yezi"], ["CHoaoadaCmj"]),
   (["yiii"], ["SErbfjchIpaDAEfe"])]

/-- What belongs to no script and is used with some scripts only. -/
def shared : CharSet :=
  ofTable ["HbaTwakabcbajabaBmobbbapchbbbqacasafaemeaKmbOzaoadaBgakkBaaBCibrbCWraCGlcCtbHvbbaBVeBq",
    "HpbCcabaVsaBfakacaFqaEZmaybkaeabaQmpbccabjbmkdcfbaedDlddaDmbFrpBgBljaBwBnCeBwplBzaDkykeDsBeBR",
    "OjhLkjJkaGeaBFPmbKbbKwekaBtbNoceBsdiQaBbGDzaCMDwdIPwrLRyb"]

/-- The characters of a script. -/
def script? (name : Text) : Option CharSet := (row? scriptTables name).map ofTable

/-- The characters that are used with a script. -/
def scriptExtensions? (name : Text) : Option CharSet :=
  (scriptTables.find? fun row => row.1.any fun n => n.toList == name).map fun row =>
    let more := row.1.filterMap fun n => row? extensionTables n.toList
    if row.1.contains "zyyy" || row.1.contains "zinh" then .difference (ofTable row.2) shared
    else ofList (ofTable row.2 :: more.map ofTable)

/-- What the versions of the standard added, in their order. -/
def ageTables : List (List String × List String) :=
  [(["1.1", "v11"], ["aTheBdCeDkhBubjwCrBabsbeadafgbabtbBrbgdababababrnlbCnblbBojCacbcbdBbchcbCdBl",
     "cgbBmbaBmjbimBafexaoadabzfsnncCtcebobBdcjTzcbCacrcedyqcbhcbcvbgbaddcabgcbccjaebbecuhacfebcvb",
     "gbbbbbbcabeebccldbahomcbgbabcbvbgbbbecjbcbccapafjrcbhcbcvbgbbcdchdbccibebbcekrbbfdcbddbbabbd",
     "bdcdhbceedcbdjaplocbhbcbwbjbeegbcbdhbjbejsbbhbcbwbjbeegbcbdhbhabbejsbbhbcbwbpefccbdjaibejFpC",
     "feBcBlbbacbbacagdbgbcbabacbbmbccebabfcjcbRiBlkBmeaeDlfCpfDdEOkFyfDlgvcfcBlcfchbabababBecCabo",
     "bncfbsccbibBubwBjgdBarkBlrBeCeBaBvnDmvJhoabEqFdBkBbkvFivFtkDbqtgDhFpdbdcBbbBibabddabgcgoBedx",
     "bnDDhCdhabDfefcDpgBneDpbpDsBcdBjBcBbdBxpleBubEoeDucBeJWbBEXxYJqJXtIcgmegybebabbbbbEdBhOaqClc",
     "CbBolBkdmuejbsbdecbabFecabDpcDpdfcfcfccdgbgoc"]),
   (["2.0", "v20"], ["CCvqbmuaDMxCtbBghBaefbabudgbaFQnaUhaCATwQNrEIFybDSYobDSYobDSYobDSYobDSYobDSY",
     "obDSYobDSYobDSYobDSYobDSYobDSYobDSYoHLXh"]),
   (["2.1", "v21"], ["MJsaDGOta"]),
   (["3.0", "v30"], ["TidBehcrEneBxakeDjitaEmadabababaBeamaCoamaBqbcdDobGaaHscDubfapaBqebnbBddBaCb",
     "BwCFhbbrdxbibacgdaefbabhscOjaBraxchabcbocaBwBhbebbbgddgzQggbCkbabdcgbabdcBmbabdcBebabdcgbabd",
     "cgbgbwbBebabdcgbBmbsgBbBjDgmYfjBcdDcFnDodjwobjgDjiBpCWbayfDrcBybDhbCuaDziKjaErabBdFibRphBhaD",
     "ibPiJvCCezbDkmIfBalCicdaNpxWmJTdBFEgBSudrcpblbcbaBGScaBVvc"]),
   (["3.1", "v31"], ["BMybDQQcBfBXwBebdmBaGzBlcBlCZDqJlkBmdGxVaDgbCsbbcacbcdblbabdbbbCmbdchbgbBbbd",
     "bebadgbMzeLdeBxPDwCLEsBETdUvBPCQtaBeDr"]),
   (["3.2", "v32"], ["UyaLqatmEabBcaFrbCfbcbcbBxpNmbMjaDNhbCHjmbglwjtmmbcbbDIxageeahenaCkbBygDeoGm",
     "lJinEuaBeBzKytFvjDkhwbDmlcjIonDmBbepJwTrBZncDjbibDqaJgpDdoDdoBRDibqamadaBGJaCgBJdadpCbbBsaJb",
     "b"]),
   (["4.0", "v40"], ["UzascEpbClqDchfcFveTwdjiCmcFtbpaBtcBdcQuaHcaCpabaFgaDgcnaCpaChaEzhHlbEFnasjK",
     "cBcdleleadBpceEdBfBDoEdBCpbIwaZjbLqaKqbEmhobBRanCRnbBxaBrbDadGldDvbBfaJToClCOQvaCvbQxlbzbsbb",
     "bocnBiEsfceBsdiWeBdbaFebBmDbcjBGwfcabBrbbdacaCYUiDiNyaBTKDaJf"]),
   (["4.1", "v41"], ["VvkKseGddJmbGoaBicCpasaCgfJhBdUhaDcaStaBvaBMnbLjbbaKgaClaClaBnaBfaBfaBfapaBn",
     "axbBfzCGcBpgzgjebBgBbcbBGmDjZhbbgBxeBddCbaDcapaYukWaaDxbskfpKkgBGhfJcBubBuBhEcoBskCbjaqwjgbg",
     "bgbgbgbgbgbgBhxebBJupGsaBPItvCTowIzBrBFEaEbBFqjBFaCwUnBjenCIsdbbfhbcbBaeceiiiCXPvCrBRab"]),
   (["5.0", "v50"], ["WgnLncMzaBqfqdGkaTxCgOubbbBHibnbFIjCxeBsWlgBzbBCudDpbCbaXblBBmaKqdBGjgfdMemh",
     "dBULjdfbLaCdBKOmzfaIRgBHuFpDundCOGirBQub"]),
   (["5.1", "v51"], ["BHwdcbDjaHbaFkpIseleBgeLqrTdbIoaBjaHyaBdbEeaEeaBabibuhHhagaBdbmfdgSxbDtadcCz",
     "afacahcefBaClebDBeaBBxBqdlCsCddodByMtBbGzdDmfNsaFjaDqaCbdBYaavjddKeaBfdBFfeeBodeKucbcefNqBfy",
     "dcsBDkaGgtBPPohBZoLnuBfcriBbFbecEcEgeEyCqjlBmDflaGeCcjncjcdBFSucBHplCaBtFaBcdBwCKdzfaCXSjaLR",
     "qBreDv"]),
   (["5.2", "v52"], ["BYqbBCcBtcoHlaCzagaBjbEyaCFpdHldHgeCqeDefTsaYgiVoCrGybBuaCrCkbBcckgjgnVaBiKg",
     "aBAucFvcCcaXiaBArbBdcejbsbaexDjaBNheKsanbEdgMhaBOclBPLshBXkBvQaDjMajGkBbDwBcdCzbkebEyBbeCoye",
     "IqBtcjQOkweBwNBbcFGcvbiHebMmBfEyCbdBccBafhEyCuUpBeTtCnLVqBPeCTNdkfBecalabacadadeiahazabbcakd",
     "caEhapBhoiCQLjGDo"]),
   (["6.0", "v60"], ["BYsbJoaCkaSmBbcaIlbtagbBbeTmfQraqataWbdCvbBIobDEnBzidToaZohBcaBFjkBCcatabdBd",
     "aebBcaBjabaecjbCacyaoaobCDkaoaBPocBSEnbLnbbbojDcaBDufcfcfjgbgBEMtpHRiCzeBdBHEeVwBALbbYMgocnc",
     "oboDcabkbabbbcbcfhbgbjgibacbbjebbjCxzbbBvivbGsBgpfbCrdtmBkbevqpCkbabGzbddCjsxFrebpbcbabababc",
     "bfcdbacdblekBwCrCgElCUQmIn"]),
   (["6.1", "v61"], ["CCtaEmaZrabkCdBaTdaBMrbStafaBvcEBbcmfJwhBrdECqabaBYqbBzafaCebHujBRAeaCNnhBja",
     "JibwaCzbBCowBDZzbFUuCdgbCRoyhjgCabnCiCuhjBTuCdijBHKoCqlBuqqBVWidbBabbbacabjbdbabagaeabababcb",
     "bbacabababababbbacdbgbdbdbabjbqfcbebqCabYibBLsdHgaqadabababadagbeabbea"]),
   (["6.2", "v62"], ["MKga"]),
   (["6.3", "v63"], ["CIeaJYvd"]),
   (["7.0", "v70"], ["BIlaQihDpbEoaZralfCyaEqahaYpaBzaCyaExaIujDKrhVcbPloVxbJdoBBhcBFqgBDtaBQickzc",
     "BfcBhdlbhXugBTOvfJmllccbCraSuBeEvdGuBvebBFIvgBHdbtaMhBbBjaBwBqOzBniBzlaFoLyjvkhJoCkiiRwBfBgB",
     "melFhrhdmgBVjaIaBmDiamagtlrbBqEkCgfjhcbhcbcvbgbbbecicbccjafgcgdeKhCtijGkCbcrCcCqljWkDemaRgCe",
     "DFiBpHulfaBALfBebjebDsBdcfkCrkjbgbufsBEMaEcfmdihjchQKyHocpCZwaBgvvbUmljaCsawlBlafdflrgCtabaH",
     "aaebClbegBdrbBobDhCsbnBvCsjqmddFkDgBrleCdijgBniBd"]),
   (["8.0", "v80"], ["DHrbBuaUnaNoaKaaCMvacfEVoaHvbDYedBRWviCOuaJgaBifMmbXmdmDbBFFqbEBgsbbfeHgbcpc",
     "BtYqBynByhfBVddoeGegbabdbobkDiaDbaYjtLezdoepERpaIwHnLQqWkCAWlkCHzZbpeboJHdcDabDbeBkhJvaCxeJj",
     "bFjaWdiDzeChaCUClINp"]),
   (["9.0", "v90"], ["DHuhwoBJpaHyaecbgxcFRziOgaCHbdDXcbBTZlaKsaBHQdbBEvBjeBjFAoaRhDlbabaTumCCxibB",
     "sbnkBcdBfcvbnBFMvaBfJBotBDaBGFlgbqcgbbbeDIzCwfjebDDbrFmaBFyaBpaLobBhcVafbhiaclbleoBmm"]),
   (["10.0", "v100"], ["DEmkPlbJsfTsaCgbFYwaJudBBhaBFzaCZaaYceBCmaBPXnuBLPicIQqCtiBzcwbeXhgbbbBrda",
     "bbbiijBFGpaYHkKyDdPfYAefBRpbBibTzltaihbbzasmBmfCewDCPdLBk"]),
   (["11.0", "v110"], ["CAyaBnaDyaUfcIdaLmaEpaPhaExaENraBOhBqccFRmcwyeoWpeBCiaBPYheCYhaibMmbBKVcbs",
     "aBAtBnijRmBniBpOhaEocTgaLeaBAxaIvChXlaBBefbbbBkbbbfhjLyyBEApDmJPieBCJutEwgJLwCpBScaCEzaIldOi",
     "cBcecddabdyknjhbBkyDsn"]),
   (["12.0", "v120"], ["EStaUgacacabfeahahbcanaFKhaFPuaCbaWtaBTZmfceBJrbBMBgwBRkaXcaBCphcBtckGdbBZ",
     "mBxnaHQuiWJkfeaBviDmbJCwfPRccrdSAqBsdncjebOeCffaCJzaBKnCiBPeaCBgaBkaIvlLdcBvaBxajaBpfdbkfdhc",
     "cBwDfBcdecfcnf"]),
   (["12.1", "v121"], ["TIda"]),
   (["13.0", "v130"], ["DIcjZdaQoaEuaFAjbGJuaBAucBHoeKPijBFDgmCYsdBqbCbaBFvdBGQqaEWxBpbccbJuBbOpaF",
     "ebZaafbBTmgcachbbbBdbbcljjCKkaBEJralbKFxSoBqiBLWucDpcCjaBYubBjbQtbDmaDxaebBqbgcBdaGmaodpshgj",
     "cngBpFqbCcBljCMSjgBHTqHHy"]),
   (["14.0", "v140"], ["CIfaWwBebbghvaskBHpaBgaExaDWhahajaJfaBAnnEvaBwbYlaBBhaEIoaBvaTfkBRAtcCYibo",
     "bbabeycBFTdaOrpExaBubCVgkbobgbbbkbobgbbRjfbBpbiCXxzIwfCyaCGsaFegBHppHWyDuWDxDabjBAEwdbgbbLcd",
     "LIbBtcwjElVdbEYvBeBHxBeBZdgbdbbboFQkcKmaPcaDeaGsbBsdkdicrcghigCNCpbGEvd"]),
   (["15.0", "v150"], ["EXnaSgaDTAkcBFzcDIcjBNaqbBodBbHXdajBcBVHkaBiaMRatERhfKbCjBhaBPwBpGUcaFvcee",
     "DlaZrcpbBkclcbaobkbmaobCTHoaBIWsGFf"]),
   (["15.1", "v151"], ["SEmdTbaKEIqXx"]),
   (["16.0", "v160"], ["DGpaHCgbBvaKfbCWycFFebBSQvcmcBJOlBzCTwBldBcibLucCdaBSljbacabBlbjbacabdbjbb",
     "ibBCvtBVwBhojBHgaHYzFXqKZtCfEOkCfLYjaXWiJpgQtIToBqeaHCcjebRnafaBuahavacajaIrBk"])]

/-- What has been in the standard since a version. -/
def age? (version : Text) : Option CharSet :=
  let isVersion (row : List String × List String) : Bool := row.1.any fun n => n.toList == version
  if ageTables.any isVersion then
    let before := ageTables.takeWhile fun row => !isVersion row
    some (ofList ((before ++ (ageTables.find? isVersion).toList).map fun row => ofTable row.2))
  else none

/-! ### Properties that a character has or lacks -/

/-- The property `Other_Uppercase`. -/
def otherUppercase : CharSet :=
  .listed [(0x2160, 0x216F), (0x24B6, 0x24CF), (0x1F130, 0x1F149), (0x1F150, 0x1F169),
    (0x1F170, 0x1F189)]

/-- The property `Other_Alphabetic`. -/
def otherAlphabetic : CharSet :=
  ofTable ["BGfaBdmWenbabbbbbaCukBwmbgqaDxgedcbeaBjaBepDykDxbdibcbdEcaCildggtCcbcobbfckbBdcCggcbcb",
    "kakbBdcCgeebcbeaBebdalcCghbcbbvbwcecCggcbcbjbkbBeaChedcbckaBoeCfgbcbciblbBdcCggbcbciblbpamdCg",
    "gbcbckakbBdcCxfbabhsbCjacgsaDvacfbbqaGhsjkbBjEglbacdxdecbccgddnlbakdCLobBebBebBebCosHgbBiaEol",
    "eiIoeCfjctCwblcBxeBwoCicBeicbCfkBysPwBhCOnBzDKgBfBTQahBibNqaiaxeDkbBypbaCfaBmeBclBtdBwlBlaCpn",
    "maibBtcByabccbfaBsefaJdhBDZvaDEdeCMgcbbfdBEidCnaMjbDbaJzcCbnBtblcBtijaCjcBklsbCfcBwmobDoicaga",
    "caGbjxdCggcbcbkakbDgibacabdbbDzmbcEcrJdgcgBdbDeobaEckDznJxmJnfbbcbdabaFmgcfeaBcjBqebdskBunPrh",
    "bgDfvbnEsfdabbbcbadaCoebbbdNkdjbbaBwgdcYYnqFJcabCchdDpbBDAyaNKjgbqcgbbbeDwaDHvaCZwzgzgz"]

/-- The property `Other_Lowercase`. -/
def otherLowercase : CharSet :=
  ofTable ["GoapaThihbBeeDsaCaaFCzaEPzCknaBiBkBAnanaqmIdpBGqzCWobBUGkbIcaEzcdbBHidjaBIWsaccbBpbiDD",
    "ZhCj"]

/-- The property `Other_Math`. -/
def otherMath : CharSet :=
  ofTable ["DqaBHxccaBabcbKQyaBbclaBgdybobCnmeadbeesaeacjbadegadbcbbcbfddfeCxecdbbbbbabecbebercbba",
    "bgbagbLedGmbbayaraRdbmifefbcbdeoabacfybCfabaBddjbNebBfjPnvCldBgbDCLfabaeaIdabaDCOvDgbCsbbcacb",
    "cdblbabgbCmbdchbgbBbbdbebadgbNbcybybBebybBebybBebybBebybhcBxIIqdbBabbbacabjbdbabagaeabababcbb",
    "bacabababababbbacdbgbdbdbabjbqfcbebq"]

/-- The property `Other_Grapheme_Extend`. -/
def otherGraphemeExtend : CharSet :=
  ofTable ["DRyayaNuayaDyayaIyabaebbbjbDzayaEpapaDMraBeaBNkafabafbDxaCtbBOiaGCvbBTWtaEeaBGNlbGWmaE",
    "maKeaoajaDsajacabcfaIqamaJhaKcaYjamaCHfaBEOkbBKXnbgfBTLAzDr"]

/-- The property `Other_ID_Start`. -/
def otherIdStart : CharSet :=
  .listed [(0x1885, 0x1886), (0x2118, 0x2118), (0x212E, 0x212E), (0x309B, 0x309C)]

/-- The property `Other_ID_Continue`. -/
def otherIdContinue : CharSet :=
  .listed [(0xB7, 0xB7), (0x387, 0x387), (0x1369, 0x1371), (0x19DA, 0x19DA), (0x200C, 0x200D),
    (0x30FB, 0x30FB), (0xFF65, 0xFF65)]

/-- The property `Other_Default_Ignorable_Code_Point`. -/
def otherDefaultIgnorable : CharSet := ofTable ["BGpaFIlbCKhbDHnaGLiaDACpaDbiBWMIhabBdDsExJgFIl"]

/-- The property `Pattern_Syntax`. -/
def patternSyntax : CharSet :=
  ofTable ["BhokgBadbaBadBigbabbbabbeaeadaxaBfaLUexiocsbjLtBBrGeYfBeBRnTsExOvceypaCZQzbKbb"]

/-- The property `Pattern_White_Space`. -/
def patternWhiteSpace : CharSet :=
  .listed [(0x9, 0xD), (0x20, 0x20), (0x85, 0x85), (0x200E, 0x200F), (0x2028, 0x2029)]

/-- The property `Prepended_Concatenation_Mark`. -/
def prependedMark : CharSet :=
  .listed [(0x600, 0x605), (0x6DD, 0x6DD), (0x70F, 0x70F), (0x890, 0x891), (0x8E2, 0x8E2),
    (0x110BD, 0x110BD), (0x110CD, 0x110CD)]

/-- The property `Variation_Selector`. -/
def variationSelector : CharSet :=
  .listed [(0x180B, 0x180D), (0x180F, 0x180F), (0xFE00, 0xFE0F), (0xE0100, 0xE01EF)]

/-- The property `Emoji_Modifier`. -/
def emojiModifier : CharSet := .listed [(0x1F3FB, 0x1F3FF)]

/-- The property `Ideographic`. -/
def ideographic : CharSet :=
  ofTable ["SEwbziocBLdJTnCmBFBjBHSiObcEbBSIkaBbJBziBVpBpjNUlPfBDEiCLFbBgGDtgIncINpoLBkpXxDQwUvCFy",
    "HHyfGFf"]

/-- The property `Sentence_Terminal`. -/
def sentenceTerminal : CharSet :=
  ofTable ["BhamaqaCAbaFrcGyaBrcJmaCjabadbLhbCPwbBEkaebBDtaHqbGbbBtafaMcbNqdGgbkbcbBdcHfbCnbBJwaxb",
    "jcEUxcLuanawbQnaBSHwaKkbItadaOsbDibDraFwbFrcFobJpaBFCwacbChadbGnamaqaCnaEDwbBXdeBsdHhbEndExcE",
    "zbgaqbDkbbbEeaLmbEnbOjbfoEbbJpcTxabaJrbDjbQebBAqbCwbBCMbbFdaCnblaVhbLkaBDOgaLIma"]

/-- The small letters. -/
def lowercase : CharSet := .union (categories ["ll"]) otherLowercase

/-- The capital letters. -/
def uppercase : CharSet := .union (categories ["lu"]) otherUppercase

/-- The alphabetic characters. -/
def alphabetic : CharSet :=
  ofList [lowercase, uppercase, categories ["lt", "lm", "lo", "nl"], otherAlphabetic]

/-- What extends a grapheme. -/
def graphemeExtend : CharSet := .union (categories ["mn", "me"]) otherGraphemeExtend

/-- What begins an identifier. -/
def idStart : CharSet :=
  .difference (ofList [letters, categories ["nl"], otherIdStart])
    (.union patternSyntax patternWhiteSpace)

/-- What an identifier goes on with. -/
def idContinue : CharSet :=
  .difference (ofList [idStart, categories ["mn", "mc", "nd", "pc"], otherIdContinue])
    (.union patternSyntax patternWhiteSpace)

/-- What changes its place in identifiers when a text is normalized. -/
def unstableId : CharSet := ofTable ["BIgaRCibCZEffPqbEmabababababababa"]

/-- What is not shown by default. -/
def defaultIgnorable : CharSet :=
  .difference (ofList [otherDefaultIgnorable, categories ["cf"], variationSelector])
    (ofList [.ofClass .space, .listed [(0xFFF9, 0xFFFB), (0x13430, 0x13440)], prependedMark])

/-- The capital letters that have no small form. -/
def keptByLower : CharSet :=
  ofTable ["BLqcLBhaeadccccadegadadbcbbakbfaGIQkzBazBazBaabbcacbcdbhBazBabbdchbgBbbbdbebadgBbzBazB",
    "azBazBazBazBeyBhyBhyBhyBhyBhaJQbzgzgz"]

/-- The small letters that have no capital form. -/
def keptByUpper : CharSet :=
  ofTable ["GoapaEvaDgaBcboadaDuasfBbacabacccaeafbbacbbgbbbaccgebabhczhbBeeFtaEzaNraBnaEItaEOhEqbc",
    "bpbBwImbbaRxanaqmEfadbdaBbaeaeacbidEFvacacgDyaBUClbFqbCkivagazaBjabaBccdcBFpBibgbnBIWsaccbBpb",
    "iCZKhzBagbrBazBadbabgbkBazBazBazBazBazBazBazBazBaBbBcybfBaybfBaybfBaybfBaybfbaCSyjbtgfKbCj"]

/-- What is changed by the mapping to lower case. -/
def changedByLower : CharSet := .difference (.union uppercase (categories ["lt"])) keptByLower

/-- What is changed by the mapping to upper case. -/
def changedByUpper : CharSet := .difference (.union lowercase (categories ["lt"])) keptByUpper

/-- What the mapping to title case leaves as it is. -/
def keptByTitle : CharSet := ofTable ["RlacacaBmaFQjBqccFNchihihmapaBva"]

/-- The capital letters with a form for titles. -/
def titledCapital : CharSet :=
  .listed [(0x1C4, 0x1C4), (0x1C7, 0x1C7), (0x1CA, 0x1CA), (0x1F1, 0x1F1)]

/-- What is changed by the mapping to title case. -/
def changedByTitle : CharSet := .union (.difference changedByUpper keptByTitle) titledCapital

/-- What case folding changes beside the capital letters. -/
def foldedOnly : CharSet :=
  ofTable ["GzaBpaEbaCbaRlaEuanbdbzbdaPlaFMefDFuiUjbIuhihihkccakccaBqccaCAVgDbBEAigme"]

/-- What is changed by case folding; Cherokee folds to its capital letters. -/
def changedByFold : CharSet :=
  .union (.difference changedByLower (.listed [(0x13A0, 0x13F5)])) foldedOnly

/-- What stands between letters of a word. -/
def midLetter : CharSet :=
  .listed [(0x3A, 0x3A), (0xB7, 0xB7), (0x387, 0x387), (0x55F, 0x55F), (0x5F4, 0x5F4),
    (0x2027, 0x2027), (0xFE13, 0xFE13), (0xFE55, 0xFE55), (0xFF1A, 0xFF1A)]

/-- What stands between letters or digits of a word. -/
def midNumLet : CharSet :=
  .listed [(0x2E, 0x2E), (0x2018, 0x2019), (0x2024, 0x2024), (0xFE52, 0xFE52), (0xFF07, 0xFF07),
    (0xFF0E, 0xFF0E)]

/-- What goes on with an identifier only, when a text is normalized. -/
def unstableIdStart : CharSet := .listed [(0xE33, 0xE33), (0xEB3, 0xEB3), (0xFF9E, 0xFF9F)]

/-- The properties that a character has or lacks, by their names. -/
def flags : List (List String × CharSet) :=
  [(["ahex", "asciihexdigit"], .listed [(0x30, 0x39), (0x41, 0x46), (0x61, 0x66)]),
   (["alpha", "alphabetic"], alphabetic),
   (["bidic", "bidicontrol"], .listed [(0x61C, 0x61C), (0x200E, 0x200F), (0x202A, 0x202E),
     (0x2066, 0x2069)]),
   (["bidim", "bidimirrored"], ofTable ["BobsabaBcabaBdabaBtapaFMsdCUnbDQqbkbCcbobGvaHkddfdadbddbd",
     "babaeifabrfdjbbabhbBfcdfajbcsfbjecbexcpidubhbBPtnCwacdbbbcfdfcdnPnvcfbniahfdaeebbceeabccbkfc",
     "bmsbdcabacabdfbgcyblbedbbcbeBqchbBnfabadefceadebaJwaTvddbbbobcjBrhQljchDACrffbGgbsabaBcabaBd",
     "ababbbbDDPnaCfaCfaCfaCfa"]),
   (["cased"], ofList [lowercase, uppercase, categories ["lt"]]),
   (["caseignorable", "ci"],
    ofList [categories ["mn", "me", "cf", "lm", "sk"], midLetter, midNumLet, .single '\'']),
   (["changeswhencasefolded", "cwcf"], changedByFold),
   (["changeswhencasemapped", "cwcm"], ofList [changedByLower, changedByUpper, changedByTitle]),
   (["changeswhenlowercased", "cwl"], changedByLower),
   (["changeswhentitlecased", "cwt"], changedByTitle),
   (["changeswhenuppercased", "cwu"], changedByUpper),
   (["dash"], ofTable ["BtaCAuaBzaFKjaBNpaDBdfCjaBnapaPaaEOiacaBfbeaBcaReataEhaCZWabBlakaGnaFLoaMg",
     "a"]),
   (["defaultignorablecodepoint", "di"], defaultIgnorable),
   (["dep", "deprecated"], .listed [(0x149, 0x149), (0x673, 0x673), (0xF77, 0xF77), (0xF79, 0xF79),
     (0x17A3, 0x17A4), (0x206A, 0x206F), (0x2329, 0x232A), (0xE0001, 0xE0001)]),
   (["dia", "diacritic"], ofTable ["DqabaCtagaeacbTjGcbhffrbeajbJteIbaCdBsbabbbbbaFbhebFebebdcCpBa",
     "DnkCgkBibEwhBpjqBbCjaqaddBcaCwaqaEgaqaEgaqaBvcCiaqahaEpaEgaqaEgaqaEfbqaEuaEhamfbaEdaneCxbBba",
     "babaebCocbbCkaEiabbBobeezgbakbBBdcBKmbBeaFskjaNjcLgauhcaBwockEaapaBmiCcbCgalbCobCmfDeyeagacc",
     "ByCkBwBjflBlkRdabclcncncnbEXkcMfaTmfEbdDraBSMkambbaBcbDeboBhDycEfbmaBlaFvaBbrCfdBkaDramaBkaF",
     "tcCndBzaDwejcEybBDZsaBDppKkabaBvaBtbCpaBDkaBTnfbBpbiYnceaGjbVzfBmaBaePjcCskBxdHkaBpaCubEqbCk",
     "aCyajcEabGwbDcbqaygdeDlcbbnbDradaEtbJrbEwaEobElaKjbJybeaGaaDfasaDdaQfaJyabbDdaQjbxaHYaoQZpaD",
     "SaeChgVsbVaqDcbYGcdbgbbLThBtcwUycdfihcgBedFMwCjHmgOlaCjdBDmbBCigEfcbc"]),
   (["ebase", "emojimodifierbase"], ofTable ["OLhaIlaqdGSJvaCiccaccEnbckvsdaecbchabayaHtbeavaebGsc",
     "deDfaqcjalaWdacaihgajjccCeaCjbbbbarcbmIvcBqi"]),
   (["ecomp", "emojicomponent"], .listed [(0x23, 0x23), (0x2A, 0x2A), (0x30, 0x39),
     (0x200D, 0x200D), (0x20E3, 0x20E3), (0xFE0F, 0xFE0F), (0x1F1E6, 0x1F1FF), (0x1F3FB, 0x1F3FF),
     (0x1F9B0, 0x1F9B3), (0xE0020, 0xE007F)]),
   (["emod", "emojimodifier"], emojiModifier),
   (["emoji"], ofTable ["BjagafjEhaeaLYramaIiawaDmfpbOdbmaGkazkecHraIxbkajaCgdbejacacbcaeacabbcada",
     "dbicfabafllbcabbbasacbsfbabbdbfacbeblbfbcafbbabbubffbdcaeacacfbacababagadagakbpacaeabaecbalb",
     "BwcjaoaoaOibRvctbBzaeaBVuamaXdabaGMRqaHuaGebmboacjCxzbbxauacivbGsBhcEhcbbccDeccbKcbCklfbxhbc",
     "hmacdcaebnbcaibjafcmciccabaeagadagDhBwCrfhccejdabbdacjItleaKxBubjbHcEimdjfCdhockgi"]),
   (["emojipresentation", "epres"], ofTable ["NHqbHxddacaUbbvbBylBratanaibrbfbiafavahbbaeacahaebBc",
     "aBjabaecbaCjcyaoaBHbbBzaeaGPLeaHuaHiacjCxzbayauacebcvbGsBgmibCrbvmBqeemqdadCsbabHecCkndbxsaB",
     "abnaDiDgBwCrgadcccedlbhiItleaKxBubjbHcEimdjfCdhockgi"]),
   (["ext", "extender"], ofTable ["HbaUqbBHuaQzaYgaFhaDlaBCyaExaDNfaCeaXnaPiaCqaHKjaBreDzbDpcBQBua",
     "CGsaBLaawaFhaEeavbBFZvaDBkbCFbaBbaeaBVbaLhaEmbTecBVjaBEOfbBTkbbaBQYabBUfaBGuc"]),
   (["extendedpictographic", "extpict"], ofTable ["GnaeaLYramaIiawaDmfpbOdbmaDraCsazkecHraIxbkajaC",
     "gdbfblbEjkEnckbabagadagakbpacaeabaecbaleBtcjaoaoaOibRvctbBzaeaBVuamaXdabaGMRmJvncBfaCifmboac",
     "jsCeBbokauacibdjQrfMfiKfBwExEmlDhBqmdCehkfBohBeDdmBubjbQyJwBNh"]),
   (["graphemebase", "grbase"],
    .complement (ofList [categories ["cc", "cf", "co", "zl", "zp"], unassigned, graphemeExtend])),
   (["graphemeextend", "grext"], graphemeExtend),
   (["graphemelink", "grlink"], ofTable ["DNpaExaExaExaExaExaExaExaEfbqaEuaEhaExaHtaGybCPlbBeaGbaZ",
     "daItaDxbCsbGQtaBUKkaBlaFvaFmaEeaLxaJmaBJSraCHiaBpaoaCfaErbFjaEmaGyaDuaEycEjaExaJsaExaEoaEmaK",
     "jaJzbGfaDfasaDdaQfaKabDdaQjbYZca"]),
   (["hex", "hexdigit"], .listed [(0x30, 0x39), (0x41, 0x46), (0x61, 0x66), (0xFF10, 0xFF19),
     (0xFF21, 0xFF26), (0xFF41, 0xFF46)]),
   (["hyphen"], .listed [(0x2D, 0x2D), (0xAD, 0xAD), (0x58A, 0x58A), (0x1806, 0x1806),
     (0x2010, 0x2011), (0x2E17, 0x2E17), (0x30FB, 0x30FB), (0xFE63, 0xFE63), (0xFF0D, 0xFF0D),
     (0xFF65, 0xFF65)]),
   (["idc", "idcontinue"], idContinue),
   (["idcompatmathcontinue"], ofTable ["GwbfaMAgadkboOhaeawaGJJeazaBfazaBfazaBfazaBfaza"]),
   (["idcompatmathstart"], ofTable ["MWwaeawaGJJeazaBfazaBfazaBfazaBfaza"]),
   (["ideo", "ideographic"], ideographic),
   (["ids", "idstart"], idStart),
   (["idsb", "idsbinaryoperator"], .listed [(0x2FF0, 0x2FF1), (0x2FF4, 0x2FFD), (0x31EF, 0x31EF)]),
   (["idst", "idstrinaryoperator"], .listed [(0x2FF2, 0x2FF3)]),
   (["idsu", "idsunaryoperator"], .listed [(0x2FFE, 0x2FFF)]),
   (["joinc", "joincontrol"], .listed [(0x200C, 0x200D)]),
   (["loe", "logicalorderexception"], .listed [(0xE40, 0xE44), (0xEC0, 0xEC4), (0x19B5, 0x19B7),
     (0x19BA, 0x19BA), (0xAAB5, 0xAAB6), (0xAAB9, 0xAAB9), (0xAABB, 0xAABC)]),
   (["lower", "lowercase"], lowercase),
   (["math"], .union (categories ["sm"]) otherMath),
   (["mcm", "modifiercombiningmark"], .listed [(0x654, 0x655), (0x658, 0x658), (0x6DC, 0x6DC),
     (0x6E3, 0x6E3), (0x6E7, 0x6E8), (0x8CA, 0x8CB), (0x8CD, 0x8CF), (0x8D3, 0x8D3),
     (0x8F3, 0x8F3)]),
   (["nchar", "noncharactercodepoint"], ofTable ["DSDcBfUgbDSYobDSYobDSYobDSYobDSYobDSYobDSYobDSYo",
     "bDSYobDSYobDSYobDSYobDSYobDSYobDSYobDSYob"]),
   (["oalpha", "otheralphabetic"], otherAlphabetic),
   (["odi", "otherdefaultignorablecodepoint"], otherDefaultIgnorable),
   (["ogrext", "othergraphemeextend"], otherGraphemeExtend),
   (["oidc", "otheridcontinue"], otherIdContinue),
   (["oids", "otheridstart"], otherIdStart),
   (["olower", "otherlowercase"], otherLowercase),
   (["omath", "othermath"], otherMath),
   (["oupper", "otheruppercase"], otherUppercase),
   (["patsyn", "patternsyntax"], patternSyntax),
   (["patternwhitespace", "patws"], patternWhiteSpace),
   (["pcm", "prependedconcatenationmark"], prependedMark),
   (["qmark", "quotationmark"], ofTable ["BiaeaFbapaLWuhzbFIdaRpdncDABpdHhaeaDmb"]),
   (["radical"], .listed [(0x2E80, 0x2E99), (0x2E9B, 0x2EF3), (0x2F00, 0x2FD5)]),
   (["regionalindicator", "ri"], .listed [(0x1F1E6, 0x1F1FF)]),
   (["sd", "softdotted"], ofTable ["EbbHoaKvaBeaCaauaMiaDuabaJMnaBzanadaFcaGbaQfaIgbEGgaGELhbBybBy",
     "bBybBybBybBybBybBybBybBybBybBybDFyaLtbBaa"]),
   (["sentenceterminal", "sterm"], sentenceTerminal),
   (["space", "whitespace", "wspace"], .ofClass .space),
   (["term", "terminalpunctuation"], ofTable ["BhakabalbdaBFyaiaTtaCfaCuaoabcGyaBrkbaJbbCcfbhBfaKb",
     "bBWubGqaefLzbBEjhBDtaEucCtbGbcdaBndcbMcbNqdGgbkbbcBdcHfeCkbBJwaxbjcEUxcLuanaeakabbdbQmbBSHvb",
     "KjcIteOsbDibDraFvcFrcExaqbJpaBFCwacbCfcbdGnakabalbdaCnacaBPqaBwaBSoaHraLybFwfCqfDldBKqeBsdHh",
     "gEidExcEzbgaqbDkeEeaLmbEncmbNuddoEbbJpcTxabaJrbDjbebPycBtaYvbCwbBYxeBAMzbFdaCnckaVhbLjbBDOga",
     "LIld"]),
   (["uideo", "unifiedideograph"], ofTable ["TSaJTnCmBFBjBICsbbabbkababbccDVEcCLFbBgGDtgIncINpoLBk",
     "pXxGRqHHyfGFf"]),
   (["upper", "uppercase"], uppercase),
   (["variationselector", "vs"], variationSelector),
   (["xidc", "xidcontinue"], .difference idContinue unstableId),
   (["xids", "xidstart"], .difference idStart (.union unstableId unstableIdStart))]

/-! ### Boundaries -/

/-- A carriage return. -/
def carriageReturn : CharSet := .listed [(0xD, 0xD)]

/-- A line feed. -/
def lineFeed : CharSet := .listed [(0xA, 0xA)]

/-- The zero width joiner. -/
def joiner : CharSet := .listed [(0x200D, 0x200D)]

/-- The letters that flags are written with. -/
def regionalIndicator : CharSet := .listed [(0x1F1E6, 0x1F1FF)]

/-- The Hangul syllables of two letters. -/
def openSyllables : CharSet :=
  .listed ((List.range 399).map fun k => (0xAC00 + 28 * k, 0xAC00 + 28 * k))

/-- The spacing marks that stand in a grapheme of their own. -/
def detachedMark : CharSet :=
  .listed [(0x102B, 0x102C), (0x1038, 0x1038), (0x1062, 0x1064), (0x1067, 0x106D), (0x1083, 0x1083),
    (0x1087, 0x108C), (0x108F, 0x108F), (0x109A, 0x109C), (0x1A61, 0x1A61), (0x1A63, 0x1A64),
    (0xAA7B, 0xAA7B), (0xAA7D, 0xAA7D), (0x11720, 0x11721)]

/-- The letters that begin a grapheme. -/
def prefixedLetter : CharSet :=
  .listed [(0xD4E, 0xD4E), (0x111C2, 0x111C3), (0x113D1, 0x113D1), (0x1193F, 0x1193F),
    (0x11941, 0x11941), (0x11A3A, 0x11A3A), (0x11A84, 0x11A89), (0x11D46, 0x11D46),
    (0x11F02, 0x11F02)]

/-- The classes of grapheme boundaries by their names. -/
def graphemeClasses : List (List String × CharSet) :=
  [(["cn", "control"], .difference
      (.union (categories ["zl", "zp", "cc", "cf"]) (.intersection unassigned defaultIgnorable))
      (ofList [carriageReturn, lineFeed, joiner, prependedMark, graphemeExtend])),
   (["cr"], carriageReturn), (["ex", "extend"], .union graphemeExtend emojiModifier),
   (["l"], .listed [(0x1100, 0x115F), (0xA960, 0xA97C)]), (["lf"], lineFeed),
   (["lv"], openSyllables), (["lvt"], .difference (.listed [(0xAC00, 0xD7A3)]) openSyllables),
   (["pp", "prepend"], .union prependedMark prefixedLetter),
   (["regionalindicator", "ri"], regionalIndicator),
   (["sm", "spacingmark"], .union (.listed [(0xE33, 0xE33), (0xEB3, 0xEB3)])
      (.difference (categories ["mc"]) (.union graphemeExtend detachedMark))),
   (["t"], .listed [(0x11A8, 0x11FF), (0xD7CB, 0xD7FB)]),
   (["v"], .listed [(0x1160, 0x11A7), (0xD7B0, 0xD7C6), (0x16D63, 0x16D63), (0x16D67, 0x16D6A)]),
   (["zwj"], joiner)]

/-- The letters of scripts that are written without blanks between words. -/
def unspacedLetter : CharSet :=
  ofTable ["FHxBvbbmgCgbbabebxbabjbbjacebavdLcBquaqfeddadbhcemmaCQjBzBjaeaOhBdcelBrezDiCaDeaCCGeeb",
    "jkeDtwdadBxbadbcecabaycBOYsBaBlg"]

/-- The marks that belong to words like letters. -/
def wordMark : CharSet :=
  .listed [(0x2C2, 0x2C5), (0x2D2, 0x2D7), (0x2DE, 0x2DF), (0x2E5, 0x2EB), (0x2ED, 0x2ED),
    (0x2EF, 0x2FF), (0x55A, 0x55C), (0x55E, 0x55E), (0x58A, 0x58A), (0x5F3, 0x5F3),
    (0xA708, 0xA716), (0xA720, 0xA721), (0xA789, 0xA78A), (0xAB5B, 0xAB5B)]

/-- What belongs to words in Katakana beside that script. -/
def wordKatakana : CharSet :=
  .listed [(0x3031, 0x3035), (0x309B, 0x309C), (0x30A0, 0x30A0), (0x30FC, 0x30FC), (0xFF70, 0xFF70)]

/-- The words in Katakana. -/
def katakana : CharSet := ofList [wordKatakana, (script? "kana".toList).getD .empty]

/-- The Hebrew letters. -/
def hebrewLetter : CharSet :=
  .intersection (categories ["lo"]) ((script? "hebr".toList).getD .empty)

/-- What extends a word. -/
def wordExtend : CharSet := ofList [graphemeExtend, categories ["mc"], emojiModifier]

/-- The letters of words. -/
def wordLetter : CharSet :=
  .union wordMark (.difference alphabetic (ofList [ideographic, katakana, hebrewLetter, wordExtend,
    unspacedLetter, (script? "hira".toList).getD .empty]))

/-- What stands between the digits of a number. -/
def midNum : CharSet :=
  .listed [(0x2C, 0x2C), (0x3B, 0x3B), (0x37E, 0x37E), (0x589, 0x589), (0x60C, 0x60D),
    (0x66C, 0x66C), (0x7F8, 0x7F8), (0x2044, 0x2044), (0xFE10, 0xFE10), (0xFE14, 0xFE14),
    (0xFE50, 0xFE50), (0xFE54, 0xFE54), (0xFF0C, 0xFF0C), (0xFF1B, 0xFF1B)]

/-- The format characters that end no word. -/
def wordFormat : CharSet :=
  .difference (categories ["cf"]) (.listed [(0x200C, 0x200D), (0xE0020, 0xE007F)])

/-- The classes of word boundaries by their names. -/
def wordClasses : List (List String × CharSet) :=
  [(["aletter", "le"], wordLetter), (["cr"], carriageReturn),
   (["doublequote", "dq"], .single '"'), (["ex", "extendnumlet"],
      .union (categories ["pc"]) (.listed [(0x202F, 0x202F)])), (["extend"], wordExtend),
   (["fo", "format"], .difference wordFormat (.listed [(0x200B, 0x200B)])),
   (["hebrewletter", "hl"], hebrewLetter), (["ka", "katakana"], katakana), (["lf"], lineFeed),
   (["mb", "midnumlet"], midNumLet), (["midletter", "ml"], midLetter), (["midnum", "mn"], midNum),
   (["newline", "nl"], .listed [(0xB, 0xC), (0x85, 0x85), (0x2028, 0x2029)]),
   (["nu", "numeric"], .union (categories ["nd"]) (.listed [(0x66B, 0x66B)])),
   (["regionalindicator", "ri"], regionalIndicator), (["singlequote", "sq"], .single '\''),
   (["wsegspace"],
    .difference (categories ["zs"]) (.listed [(0xA0, 0xA0), (0x2007, 0x2007), (0x202F, 0x202F)])),
   (["zwj"], joiner)]

/-- The full stops that may end a sentence. -/
def sentencePeriod : CharSet :=
  .listed [(0x2E, 0x2E), (0x2024, 0x2024), (0xFE52, 0xFE52), (0xFF0E, 0xFF0E)]

/-- What ends a paragraph. -/
def separator : CharSet := .listed [(0x85, 0x85), (0x2028, 0x2029)]

/-- What a sentence goes on with. -/
def sentenceContinue : CharSet :=
  .listed [(0x2C, 0x2D), (0x3A, 0x3B), (0x37E, 0x37E), (0x55D, 0x55D), (0x60C, 0x60D),
    (0x7F8, 0x7F8), (0x1802, 0x1802), (0x1808, 0x1808), (0x2013, 0x2014), (0x3001, 0x3001),
    (0xFE10, 0xFE11), (0xFE13, 0xFE14), (0xFE31, 0xFE32), (0xFE50, 0xFE51), (0xFE54, 0xFE55),
    (0xFE58, 0xFE58), (0xFE63, 0xFE63), (0xFF0C, 0xFF0D), (0xFF1A, 0xFF1B), (0xFF64, 0xFF64)]

/-- The quotation marks that neither open nor close. -/
def otherQuote : CharSet :=
  .listed [(0x22, 0x22), (0x27, 0x27), (0x275B, 0x2760), (0x2E00, 0x2E01), (0x2E06, 0x2E08),
    (0x2E0B, 0x2E0B), (0x1F676, 0x1F678)]

/-- The small letters in sentences. -/
def sentenceLower : CharSet :=
  .difference lowercase (.union graphemeExtend (.listed [(0x10D0, 0x10FA), (0x10FD, 0x10FF)]))

/-- The capital letters in sentences. -/
def sentenceUpper : CharSet :=
  .difference (.union uppercase (categories ["lt"])) (.listed [(0x1C90, 0x1CBA), (0x1CBD, 0x1CBF)])

/-- What extends a character of a sentence. -/
def sentenceExtend : CharSet := ofList [graphemeExtend, categories ["mc"], joiner]

/-- The classes of sentence boundaries by their names. -/
def sentenceClasses : List (List String × CharSet) :=
  [(["at", "aterm"], sentencePeriod),
   (["cl", "close"], .union (categories ["ps", "pe", "pi", "pf"]) otherQuote),
   (["cr"], carriageReturn), (["ex", "extend"], sentenceExtend), (["fo", "format"], wordFormat),
   (["le", "oletter"], .difference (.union alphabetic (.listed [(0x5F3, 0x5F3)]))
      (ofList [sentenceLower, sentenceUpper, sentenceExtend])),
   (["lf"], lineFeed), (["lo", "lower"], sentenceLower),
   (["nu", "numeric"], .union (categories ["nd"]) (.listed [(0x66B, 0x66C)])),
   (["sc", "scontinue"], sentenceContinue), (["se", "sep"], separator),
   (["sp"], .difference (.ofClass .space) (ofList [carriageReturn, lineFeed, separator])),
   (["st", "sterm"], .difference sentenceTerminal sentencePeriod), (["up", "upper"], sentenceUpper)]

/-! ### Names -/

/-- A name as the tables have it: its ASCII characters in lower case without blanks, underscores and
hyphens. The word `is` in front does not count, unless it begins the abbreviation `isc`. -/
def propertyKey (name : Text) : Text :=
  let plain (t : Text) : Text :=
    asciiLower (t.filter fun c => c.toNat < 128 && c != ' ' && c != '_' && c != '-')
  match name with
  | a :: b :: r =>
    if asciiLower [a, b] == "is".toList then
      if plain r == ['c'] then "isc" else plain r
    else plain name
  | _ => plain name

/-- The set of a property by its name. The name of a category or of a script stands for the property
of having it. -/
def property? (name : Text) : Option CharSet :=
  let key := propertyKey name
  (row? flags key).or ((row? categoryNames key).or (script? key))

/-- The properties with values, by their names. -/
def valuedProperties : List (List String × (Text → Option CharSet)) :=
  [(["gc", "generalcategory"], row? categoryNames), (["sc", "script"], script?),
   (["scriptextensions", "scx"], scriptExtensions?), (["age"], age?),
   (["gcb", "graphemeclusterbreak"], row? graphemeClasses),
   (["wb", "wordbreak"], row? wordClasses), (["sb", "sentencebreak"], row? sentenceClasses)]

/-- The set of a value of a property. -/
def propertyValue? (name value : Text) : Option CharSet :=
  (row? valuedProperties (propertyKey name)).bind fun values => values (propertyKey value)

example : (propertyValue? "Script".toList "greek".toList).map (·.mem 'λ') = some true := by
  decide

end CharSet

end DocContract
