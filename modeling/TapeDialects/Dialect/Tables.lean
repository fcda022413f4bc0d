/-
The lexeme tables of the dialects, each a list of spellings in the conventional
order of the basic commands.
-/

import TapeDialects.Lexeme.Table

namespace TapeDialects.Tables

def basicTable (lexemes : List String) : List Entry :=
  List.zipWith (fun lexeme command => { lexeme := lexeme.toList, command })
    lexemes Command.basic

def brainfuck : List Entry :=
  basicTable [">", "<", "+", "-", ".", ",", "[", "]"]

def alphuck : List Entry :=
  basicTable ["a", "c", "e", "i", "j", "o", "p", "s"]

def brainSymbol : List Entry :=
  basicTable ["!", "@", "#", "$", "%", "^", "&", "*"]

def exclamationFuck : List Entry :=
  basicTable
    ["!!!!!#", "!!!!!!#", "!!!!!!!#", "!!!!!!!!#",
      "!!!!!!!!!!#", "!!!!!!!!!#", "!!!!!!!!!!!#", "!!!!!!!!!!!!#"]

def german : List Entry :=
  basicTable
    ["LINKS", "RECHTS", "ADDITION", "SUBTRAKTION",
      "EINGABE", "AUSGABE", "SCHLEIFENANFANG", "SCHLEIFENENDE"]

def messyScript : List Entry :=
  basicTable
    [r"930pl[wer;lr[p[lwetl[erwltrewt[er;t3l.t;43.';w]er\e]e;g[er.][.rt[.e[w]r[",
      r"\];[]lr[plp[r[pelpr[,gp[lsp[glr[pt,g[pr,g[lsg[plfsdgdsfpl[erlt[lwt[43[]5l4[;.tr.",
      r"20ri-4;t[5;t'[y;e'teu;354y;;56;'5lu;y65l'ytyl';ry;rtly;t'yl'r;y'",
      r"];ae][flw[er.[w;r';ew.'rt;e';,erf/r;t.e'.fre.f'r;.rg;el[rw][p43p3",
      r"][][e[w]prepf][eg]rpe[t]lre[]lgr]o320wr89`]2l1]p`l23pr2o4]2lf]2;r][32;r][2``]234;][23",
      r"]\]p][l[weo[p4o40ti40er0iteotp[r]23;[rle[wptlo34wtp[rel[1;`][l3[l[rplew[fl[`1[l[wlr[pewlr[p",
      r"\];[]fl[roeotp[ore][gper][g;rw][;g][r;eg][le]f[el]f]w[r][wper][pwtlregl]erl][;]e;][e;t[erpt][p",
      r"\[]pe[3202-432o-0rkepk[1[pwplwpflerp[glep[r[er[pe[tpre][]t\][p[0-=30-323-=232[r[ept[erg[erpt]"]

def morseFuck : List Entry :=
  basicTable [".--", "--.", "..-", "-..", "-.-", ".-.", "---", "..."]

def pewlang : List Entry :=
  basicTable ["pew", "Pew", "pEw", "peW", "pEW", "PEw", "PeW", "PEW"]

def reverseFuck : List Entry :=
  basicTable ["-", "+", ">", "<", ",", ".", "]", "["]

def roadrunner : List Entry :=
  basicTable ["meeP", "Meep", "mEEp", "MeeP", "MEEP", "meep", "mEEP", "MEEp"]

def ternary : List Entry :=
  basicTable ["01", "00", "11", "10", "20", "21", "02", "12"]

def triplet : List Entry :=
  basicTable ["001", "100", "111", "000", "010", "101", "110", "011"]

def uwu : List Entry :=
  basicTable ["OwO", "°w°", "UwU", "QwQ", "@w@", ">w<", "~w~", "¯w¯"]

def scream : List Entry :=
  basicTable ["AAaA", "AaAA", "AAAA", "AAAa", "aAAA", "AAaa", "aaAA", "AaaA"]

def blub : List Entry :=
  basicTable
      ["Blub. Blub?", "Blub? Blub.", "Blub. Blub.", "Blub! Blub!",
        "Blub! Blub.", "Blub. Blub!", "Blub! Blub?", "Blub? Blub!"] ++
    [{ lexeme := "Blub? Blub?".toList, command := .giveFishfood }]

def ook : List Entry :=
  basicTable
      ["Ook. Ook?", "Ook? Ook.", "Ook. Ook.", "Ook! Ook!",
        "Ook! Ook.", "Ook. Ook!", "Ook! Ook?", "Ook? Ook!"] ++
    [{ lexeme := "Ook? Ook?".toList, command := .giveBanana }]

def rankedTable (lexemes : List String) (priorities : List Nat) : List RankedEntry :=
  List.zipWith (fun entry priority => { entry, priority })
    (basicTable lexemes) priorities

def wholesomeFuck : List RankedEntry :=
  rankedTable [":>", ":<", ":>>", ":<<", ";<<", ";>>", ";<", ";>"]
    [4, 5, 0, 1, 2, 3, 6, 7]

def zzz : List RankedEntry :=
  rankedTable ["zz", "-zz", "z", "-z", "zzz", "-zzz", "z+z", "z-z"]
    [2, 3, 7, 6, 0, 1, 4, 5]

end TapeDialects.Tables
