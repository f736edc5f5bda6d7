import Helios.Text.Casing

/-!
# Case folding

Two characters are variants of each other when they fold to the same character. Folding maps a letter
to a common form of it; most fold to their lower case. Patterns that ignore case go by it, in version 16
of Unicode.
-/

namespace Helios.Text

/-- Simple case folding, in runs. -/
def foldRuns : Array CaseRun :=
  ((Ranges.entries
    "41-5A+20 B5+307 C0-D6+20 D8-DE+20 100-12E/2+1 132-136/2+1 139-147/2+1 14A-176/2+1 178_79
    179-17D/2+1 17F_10C 181+D2 182-184/2+1 186+CE 187+1 189-18A+CD 18B+1 18E+4F 18F+CA
    190+CB 191+1 193+CD 194+CF 196+D3 197+D1 198+1 19C+D3 19D+D5 19F+D6 1A0-1A4/2+1 1A6+DA
    1A7+1 1A9+DA 1AC+1 1AE+DA 1AF+1 1B1-1B2+D9 1B3-1B5/2+1 1B7+DB 1B8+1 1BC+1 1C4+2 1C5+1
    1C7+2 1C8+1 1CA+2 1CB-1DB/2+1 1DE-1EE/2+1 1F1+2 1F2-1F4/2+1 1F6_61 1F7_38 1F8-21E/2+1
    220_82 222-232/2+1 23A+2A2B 23B+1 23D_A3 23E+2A28 241+1 243_C3 244+45 245+47 246-24E/2+1
    345+74 370-372/2+1 376+1 37F+74 386+26 388-38A+25 38C+40 38E-38F+3F 391-3A1+20
    3A3-3AB+20 3C2+1 3CF+8 3D0_1E 3D1_19 3D5_F 3D6_16 3D8-3EE/2+1 3F0_36 3F1_30 3F4_3C
    3F5_40 3F7+1 3F9_7 3FA+1 3FD-3FF_82 400-40F+50 410-42F+20 460-480/2+1 48A-4BE/2+1 4C0+F
    4C1-4CD/2+1 4D0-52E/2+1 531-556+30 10A0-10C5+1C60 10C7+1C60 10CD+1C60 13F8-13FD_8
    1C80_184E 1C81_184D 1C82_1844 1C83-1C84_1842 1C85_1843 1C86_183C 1C87_1824 1C88+89C3
    1C89+1 1C90-1CBA_BC0 1CBD-1CBF_BC0 1E00-1E94/2+1 1E9B_3A 1E9E_1DBF 1EA0-1EFE/2+1
    1F08-1F0F_8 1F18-1F1D_8 1F28-1F2F_8 1F38-1F3F_8 1F48-1F4D_8 1F59-1F5F/2_8 1F68-1F6F_8
    1F88-1F8F_8 1F98-1F9F_8 1FA8-1FAF_8 1FB8-1FB9_8 1FBA-1FBB_4A 1FBC_9 1FBE_1C05
    1FC8-1FCB_56 1FCC_9 1FD3_1C43 1FD8-1FD9_8 1FDA-1FDB_64 1FE3_1C33 1FE8-1FE9_8
    1FEA-1FEB_70 1FEC_7 1FF8-1FF9_80 1FFA-1FFB_7E 1FFC_9 2126_1D5D 212A_20BF 212B_2046
    2132+1C 2160-216F+10 2183+1 24B6-24CF+1A 2C00-2C2F+30 2C60+1 2C62_29F7 2C63_EE6
    2C64_29E7 2C67-2C6B/2+1 2C6D_2A1C 2C6E_29FD 2C6F_2A1F 2C70_2A1E 2C72+1 2C75+1
    2C7E-2C7F_2A3F 2C80-2CE2/2+1 2CEB-2CED/2+1 2CF2+1 A640-A66C/2+1 A680-A69A/2+1
    A722-A72E/2+1 A732-A76E/2+1 A779-A77B/2+1 A77D_8A04 A77E-A786/2+1 A78B+1 A78D_A528
    A790-A792/2+1 A796-A7A8/2+1 A7AA_A544 A7AB_A54F A7AC_A54B A7AD_A541 A7AE_A544 A7B0_A512
    A7B1_A52A A7B2_A515 A7B3+3A0 A7B4-A7C2/2+1 A7C4_30 A7C5_A543 A7C6_8A38 A7C7-A7C9/2+1
    A7CB_A567 A7CC+1 A7D0+1 A7D6-A7DA/2+1 A7DC_A641 A7F5+1 AB70-ABBF_97D0 FB05+1
    FF21-FF3A+20 10400-10427+28 104B0-104D3+28 10570-1057A+27 1057C-1058A+27 1058C-10592+27
    10594-10595+27 10C80-10CB2+40 10D50-10D65+20 118A0-118BF+20 16E40-16E5F+20
    1E900-1E921+22").map
    CaseRun.ofText).toArray

/-- The code points that fold to another one. -/
def foldDomain : Ranges := Ranges.ofPoints (foldRuns.toList.flatMap CaseRun.members)

/-- Folded forms with what folds to them, in ascending order of the former. -/
def foldPairs : List (Nat × Nat) :=
  (foldRuns.toList.flatMap fun r => r.members.map fun n => (r.apply n, n)).mergeSort fun a b => a.1 ≤ b.1

/-- **The sets of case variants** that have more than one member. -/
def foldClasses : List (List Nat) :=
  (foldPairs.splitBy fun a b => a.1 == b.1).map fun pairs =>
    pairs.head?.elim [] (fun p => p.1 :: pairs.map Prod.snd)

/-- A set with every case variant of its members. -/
def Ranges.folded (r : Ranges) : Ranges :=
  r.union (.ofPoints (foldClasses.filter fun vs => vs.any r.contains).flatten)

/-- A set with the other case of every ASCII letter in it. -/
def Ranges.foldedAscii (r : Ranges) : Ranges :=
  let other := fun c : Char => if c.isUpper then c.toLower else c.toUpper
  r.union (.ofPoints ((((List.range 128).map Char.ofNat).filter fun c => c.isAlpha && r.mem c).map
    fun c => (other c).toNat))

end Helios.Text
