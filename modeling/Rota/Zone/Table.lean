import Rota.Zone.Basic
import Rota.Zone.Rule

/-!
# A table of zones

Some zones with the rules of their changes since 1970, as a database to run schedules on.

* `NamedZone`            the zones of the table;
* `NamedZone.name`       the name of a zone, and `NamedZone.ofName?` the zone of a name;
* `NamedZone.clock`      the clock of a zone;
* `ZoneTable.database`   the table, on a host that is set to UTC.

A rule reads: first year, last year, month, day, second of the local day, offset before, offset
after.  Offsets are in seconds east of UTC.
-/

namespace Rota

inductive NamedZone where
  | utc
  | etcGmtPlusFive
  | asiaTokyo
  | asiaKolkata
  | asiaKathmandu
  | asiaHoChiMinh
  | europeBerlin
  | europeLondon
  | europeDublin
  | americaNewYork
  | usEastern
  | americaStJohns
  | americaSaoPaulo
  | americaHavana
  | americaSantiago
  | americaCaracas
  | australiaLordHowe
  | australiaSydney
  | pacificApia
  | pacificKwajalein
  | pacificKiritimati
  | pacificChatham
  | africaMonrovia
  | asiaBeirut
  | asiaPyongyang
  | antarcticaTroll
deriving DecidableEq, Repr

namespace NamedZone

def all : List NamedZone :=
  [.utc, .etcGmtPlusFive, .asiaTokyo, .asiaKolkata, .asiaKathmandu, .asiaHoChiMinh,
   .europeBerlin, .europeLondon, .europeDublin, .americaNewYork, .usEastern, .americaStJohns,
   .americaSaoPaulo, .americaHavana, .americaSantiago, .americaCaracas, .australiaLordHowe,
   .australiaSydney, .pacificApia, .pacificKwajalein, .pacificKiritimati, .pacificChatham,
   .africaMonrovia, .asiaBeirut, .asiaPyongyang, .antarcticaTroll]

def name : NamedZone → String
  | .utc => "UTC"
  | .etcGmtPlusFive => "Etc/GMT+5"
  | .asiaTokyo => "Asia/Tokyo"
  | .asiaKolkata => "Asia/Kolkata"
  | .asiaKathmandu => "Asia/Kathmandu"
  | .asiaHoChiMinh => "Asia/Ho_Chi_Minh"
  | .europeBerlin => "Europe/Berlin"
  | .europeLondon => "Europe/London"
  | .europeDublin => "Europe/Dublin"
  | .americaNewYork => "America/New_York"
  | .usEastern => "US/Eastern"
  | .americaStJohns => "America/St_Johns"
  | .americaSaoPaulo => "America/Sao_Paulo"
  | .americaHavana => "America/Havana"
  | .americaSantiago => "America/Santiago"
  | .americaCaracas => "America/Caracas"
  | .australiaLordHowe => "Australia/Lord_Howe"
  | .australiaSydney => "Australia/Sydney"
  | .pacificApia => "Pacific/Apia"
  | .pacificKwajalein => "Pacific/Kwajalein"
  | .pacificKiritimati => "Pacific/Kiritimati"
  | .pacificChatham => "Pacific/Chatham"
  | .africaMonrovia => "Africa/Monrovia"
  | .asiaBeirut => "Asia/Beirut"
  | .asiaPyongyang => "Asia/Pyongyang"
  | .antarcticaTroll => "Antarctica/Troll"

/-- the zone with this name; upper and lower case differ -/
def ofName? (s : String) : Option NamedZone := all.find? fun z => z.name == s

end NamedZone

/-! ## rules -/

namespace ZoneRules

def asiaKathmandu : List ClockRule :=
  [⟨1986, 1986, 1, .date 1, 0, 19800, 20700⟩]

def asiaHoChiMinh : List ClockRule :=
  [⟨1975, 1975, 6, .date 13, 0, 28800, 25200⟩]

def europeBerlin : List ClockRule :=
  [⟨1980, 1980, 4, .date 6, 7200, 3600, 7200⟩,
   ⟨1980, 1995, 9, .lastSunday, 10800, 7200, 3600⟩,
   ⟨1981, 2099, 3, .lastSunday, 7200, 3600, 7200⟩,
   ⟨1996, 2099, 10, .lastSunday, 10800, 7200, 3600⟩]

def europeLondon : List ClockRule :=
  [⟨1971, 1971, 10, .date 31, 7200, 3600, 0⟩,
   ⟨1972, 1980, 3, .sundayFrom 15, 7200, 0, 3600⟩,
   ⟨1972, 1980, 10, .sundayFrom 23, 10800, 3600, 0⟩,
   ⟨1981, 2099, 3, .lastSunday, 3600, 0, 3600⟩,
   ⟨1981, 1994, 10, .sundayFrom 23, 7200, 3600, 0⟩,
   ⟨1995, 1998, 10, .sundayFrom 21, 7200, 3600, 0⟩,
   ⟨1999, 2099, 10, .lastSunday, 7200, 3600, 0⟩]

def europeDublin : List ClockRule :=
  [⟨1971, 1975, 10, .lastSunday, 10800, 3600, 0⟩,
   ⟨1972, 1980, 3, .sundayFrom 15, 7200, 0, 3600⟩,
   ⟨1976, 1980, 10, .sundayFrom 23, 10800, 3600, 0⟩,
   ⟨1981, 2099, 3, .lastSunday, 3600, 0, 3600⟩,
   ⟨1981, 1994, 10, .sundayFrom 23, 7200, 3600, 0⟩,
   ⟨1995, 1998, 10, .sundayFrom 21, 7200, 3600, 0⟩,
   ⟨1999, 2099, 10, .lastSunday, 7200, 3600, 0⟩]

def americaNewYork : List ClockRule :=
  [⟨1970, 1973, 4, .lastSunday, 7200, -18000, -14400⟩,
   ⟨1970, 2006, 10, .lastSunday, 7200, -14400, -18000⟩,
   ⟨1974, 1974, 1, .date 6, 7200, -18000, -14400⟩,
   ⟨1975, 1975, 2, .date 23, 7200, -18000, -14400⟩,
   ⟨1976, 1986, 4, .lastSunday, 7200, -18000, -14400⟩,
   ⟨1987, 2006, 4, .sundayFrom 1, 7200, -18000, -14400⟩,
   ⟨2007, 2099, 3, .sundayFrom 8, 7200, -18000, -14400⟩,
   ⟨2007, 2099, 11, .sundayFrom 1, 7200, -14400, -18000⟩]

def americaStJohns : List ClockRule :=
  [⟨1970, 1986, 4, .lastSunday, 7200, -12600, -9000⟩,
   ⟨1970, 1986, 10, .lastSunday, 7200, -9000, -12600⟩,
   ⟨1987, 1987, 4, .date 5, 60, -12600, -9000⟩,
   ⟨1987, 1987, 10, .date 25, 60, -9000, -12600⟩,
   ⟨1988, 1988, 4, .date 3, 60, -12600, -5400⟩,
   ⟨1988, 1988, 10, .date 30, 60, -5400, -12600⟩,
   ⟨1989, 2006, 4, .sundayFrom 1, 60, -12600, -9000⟩,
   ⟨1989, 2006, 10, .lastSunday, 60, -9000, -12600⟩,
   ⟨2007, 2011, 3, .sundayFrom 8, 60, -12600, -9000⟩,
   ⟨2007, 2010, 11, .sundayFrom 1, 60, -9000, -12600⟩,
   ⟨2011, 2099, 11, .sundayFrom 1, 7200, -9000, -12600⟩,
   ⟨2012, 2099, 3, .sundayFrom 8, 7200, -12600, -9000⟩]

def americaSaoPaulo : List ClockRule :=
  [⟨1985, 1985, 11, .date 2, 0, -10800, -7200⟩,
   ⟨1986, 1986, 3, .date 15, 0, -7200, -10800⟩,
   ⟨1986, 1986, 10, .date 25, 0, -10800, -7200⟩,
   ⟨1987, 1987, 2, .date 14, 0, -7200, -10800⟩,
   ⟨1987, 1987, 10, .date 25, 0, -10800, -7200⟩,
   ⟨1988, 1988, 2, .date 7, 0, -7200, -10800⟩,
   ⟨1988, 1991, 10, .sundayFrom 15, 0, -10800, -7200⟩,
   ⟨1989, 1989, 1, .date 29, 0, -7200, -10800⟩,
   ⟨1990, 1990, 2, .date 11, 0, -7200, -10800⟩,
   ⟨1991, 1991, 2, .date 17, 0, -7200, -10800⟩,
   ⟨1992, 1992, 2, .date 9, 0, -7200, -10800⟩,
   ⟨1992, 1992, 10, .date 25, 0, -10800, -7200⟩,
   ⟨1993, 1993, 1, .date 31, 0, -7200, -10800⟩,
   ⟨1993, 1995, 10, .sundayFrom 11, 0, -10800, -7200⟩,
   ⟨1994, 1994, 2, .date 20, 0, -7200, -10800⟩,
   ⟨1995, 1995, 2, .date 19, 0, -7200, -10800⟩,
   ⟨1996, 1996, 2, .date 11, 0, -7200, -10800⟩,
   ⟨1996, 1996, 10, .date 6, 0, -10800, -7200⟩,
   ⟨1997, 1997, 2, .date 16, 0, -7200, -10800⟩,
   ⟨1997, 1997, 10, .date 6, 0, -10800, -7200⟩,
   ⟨1998, 1998, 3, .date 1, 0, -7200, -10800⟩,
   ⟨1998, 1998, 10, .date 11, 0, -10800, -7200⟩,
   ⟨1999, 1999, 2, .date 21, 0, -7200, -10800⟩,
   ⟨1999, 1999, 10, .date 3, 0, -10800, -7200⟩,
   ⟨2000, 2000, 2, .date 27, 0, -7200, -10800⟩,
   ⟨2000, 2000, 10, .date 8, 0, -10800, -7200⟩,
   ⟨2001, 2006, 2, .sundayFrom 14, 0, -7200, -10800⟩,
   ⟨2001, 2001, 10, .date 14, 0, -10800, -7200⟩,
   ⟨2002, 2002, 11, .date 3, 0, -10800, -7200⟩,
   ⟨2003, 2003, 10, .date 19, 0, -10800, -7200⟩,
   ⟨2004, 2004, 11, .date 2, 0, -10800, -7200⟩,
   ⟨2005, 2005, 10, .date 16, 0, -10800, -7200⟩,
   ⟨2006, 2006, 11, .date 5, 0, -10800, -7200⟩,
   ⟨2007, 2007, 2, .date 25, 0, -7200, -10800⟩,
   ⟨2007, 2011, 10, .sundayFrom 13, 0, -10800, -7200⟩,
   ⟨2008, 2011, 2, .sundayFrom 15, 0, -7200, -10800⟩,
   ⟨2012, 2012, 2, .date 26, 0, -7200, -10800⟩,
   ⟨2012, 2017, 10, .sundayFrom 15, 0, -10800, -7200⟩,
   ⟨2013, 2019, 2, .sundayFrom 16, 0, -7200, -10800⟩,
   ⟨2018, 2018, 11, .date 4, 0, -10800, -7200⟩]

def americaHavana : List ClockRule :=
  [⟨1970, 1977, 4, .lastSunday, 0, -18000, -14400⟩,
   ⟨1970, 1970, 10, .date 25, 0, -14400, -18000⟩,
   ⟨1971, 1971, 10, .date 31, 0, -14400, -18000⟩,
   ⟨1972, 1972, 10, .date 8, 0, -14400, -18000⟩,
   ⟨1973, 1973, 10, .date 8, 0, -14400, -18000⟩,
   ⟨1974, 1974, 10, .date 8, 0, -14400, -18000⟩,
   ⟨1975, 1977, 10, .lastSunday, 0, -14400, -18000⟩,
   ⟨1978, 1978, 5, .date 7, 0, -18000, -14400⟩,
   ⟨1978, 1990, 10, .sundayFrom 8, 0, -14400, -18000⟩,
   ⟨1979, 1979, 3, .date 18, 0, -18000, -14400⟩,
   ⟨1980, 1980, 3, .date 16, 0, -18000, -14400⟩,
   ⟨1981, 1985, 5, .sundayFrom 4, 0, -18000, -14400⟩,
   ⟨1986, 1989, 3, .sundayFrom 14, 0, -18000, -14400⟩,
   ⟨1990, 1997, 4, .sundayFrom 1, 0, -18000, -14400⟩,
   ⟨1991, 1995, 10, .sundayFrom 7, 3600, -14400, -18000⟩,
   ⟨1996, 1996, 10, .date 6, 3600, -14400, -18000⟩,
   ⟨1997, 1997, 10, .date 12, 3600, -14400, -18000⟩,
   ⟨1998, 1998, 3, .date 29, 0, -18000, -14400⟩,
   ⟨1998, 2003, 10, .lastSunday, 3600, -14400, -18000⟩,
   ⟨1999, 1999, 3, .date 28, 0, -18000, -14400⟩,
   ⟨2000, 2003, 4, .sundayFrom 1, 0, -18000, -14400⟩,
   ⟨2004, 2004, 3, .date 28, 0, -18000, -14400⟩,
   ⟨2006, 2010, 10, .lastSunday, 3600, -14400, -18000⟩,
   ⟨2007, 2007, 3, .date 11, 0, -18000, -14400⟩,
   ⟨2008, 2008, 3, .date 16, 0, -18000, -14400⟩,
   ⟨2009, 2009, 3, .date 8, 0, -18000, -14400⟩,
   ⟨2010, 2010, 3, .date 14, 0, -18000, -14400⟩,
   ⟨2011, 2011, 3, .date 20, 0, -18000, -14400⟩,
   ⟨2011, 2011, 11, .date 13, 3600, -14400, -18000⟩,
   ⟨2012, 2012, 4, .date 1, 0, -18000, -14400⟩,
   ⟨2012, 2099, 11, .sundayFrom 1, 3600, -14400, -18000⟩,
   ⟨2013, 2099, 3, .sundayFrom 8, 0, -18000, -14400⟩]

def americaSantiago : List ClockRule :=
  [⟨1970, 1970, 3, .date 29, 0, -10800, -14400⟩,
   ⟨1970, 1972, 10, .sundayFrom 9, 0, -14400, -10800⟩,
   ⟨1971, 1986, 3, .sundayFrom 9, 0, -10800, -14400⟩,
   ⟨1973, 1973, 9, .date 30, 0, -14400, -10800⟩,
   ⟨1974, 1989, 10, .sundayFrom 9, 0, -14400, -10800⟩,
   ⟨1987, 1987, 4, .date 12, 0, -10800, -14400⟩,
   ⟨1988, 1996, 3, .sundayFrom 9, 0, -10800, -14400⟩,
   ⟨1990, 1990, 9, .date 16, 0, -14400, -10800⟩,
   ⟨1991, 1997, 10, .sundayFrom 9, 0, -14400, -10800⟩,
   ⟨1997, 1997, 3, .date 30, 0, -10800, -14400⟩,
   ⟨1998, 1998, 3, .date 15, 0, -10800, -14400⟩,
   ⟨1998, 1998, 9, .date 27, 0, -14400, -10800⟩,
   ⟨1999, 1999, 4, .date 4, 0, -10800, -14400⟩,
   ⟨1999, 2010, 10, .sundayFrom 9, 0, -14400, -10800⟩,
   ⟨2000, 2007, 3, .sundayFrom 8, 0, -10800, -14400⟩,
   ⟨2008, 2008, 3, .date 30, 0, -10800, -14400⟩,
   ⟨2009, 2009, 3, .date 15, 0, -10800, -14400⟩,
   ⟨2010, 2010, 4, .date 4, 0, -10800, -14400⟩,
   ⟨2011, 2011, 5, .date 8, 0, -10800, -14400⟩,
   ⟨2011, 2011, 8, .date 21, 0, -14400, -10800⟩,
   ⟨2012, 2014, 4, .lastSunday, 0, -10800, -14400⟩,
   ⟨2012, 2014, 9, .sundayFrom 2, 0, -14400, -10800⟩,
   ⟨2016, 2018, 5, .sundayFrom 9, 0, -10800, -14400⟩,
   ⟨2016, 2018, 8, .sundayFrom 8, 0, -14400, -10800⟩,
   ⟨2019, 2099, 4, .sundayFrom 2, 0, -10800, -14400⟩,
   ⟨2019, 2022, 9, .sundayFrom 5, 0, -14400, -10800⟩,
   ⟨2023, 2099, 9, .sundayFrom 2, 0, -14400, -10800⟩]

def americaCaracas : List ClockRule :=
  [⟨2007, 2007, 12, .date 9, 10800, -14400, -16200⟩,
   ⟨2016, 2016, 5, .date 1, 9000, -16200, -14400⟩]

def australiaLordHowe : List ClockRule :=
  [⟨1981, 1981, 3, .date 1, 0, 36000, 37800⟩,
   ⟨1981, 1984, 10, .lastSunday, 7200, 37800, 41400⟩,
   ⟨1982, 1985, 3, .sundayFrom 1, 7200, 41400, 37800⟩,
   ⟨1985, 1985, 10, .date 27, 7200, 37800, 39600⟩,
   ⟨1986, 1989, 3, .sundayFrom 14, 7200, 39600, 37800⟩,
   ⟨1986, 1986, 10, .date 19, 7200, 37800, 39600⟩,
   ⟨1987, 1999, 10, .lastSunday, 7200, 37800, 39600⟩,
   ⟨1990, 1995, 3, .sundayFrom 1, 7200, 39600, 37800⟩,
   ⟨1996, 2005, 3, .lastSunday, 7200, 39600, 37800⟩,
   ⟨2000, 2000, 8, .date 27, 7200, 37800, 39600⟩,
   ⟨2001, 2007, 10, .lastSunday, 7200, 37800, 39600⟩,
   ⟨2006, 2006, 4, .date 2, 7200, 39600, 37800⟩,
   ⟨2007, 2007, 3, .date 25, 7200, 39600, 37800⟩,
   ⟨2008, 2099, 4, .sundayFrom 1, 7200, 39600, 37800⟩,
   ⟨2008, 2099, 10, .sundayFrom 1, 7200, 37800, 39600⟩]

def australiaSydney : List ClockRule :=
  [⟨1971, 1985, 10, .lastSunday, 7200, 36000, 39600⟩,
   ⟨1972, 1972, 2, .date 27, 10800, 39600, 36000⟩,
   ⟨1973, 1981, 3, .sundayFrom 1, 10800, 39600, 36000⟩,
   ⟨1982, 1982, 4, .date 4, 10800, 39600, 36000⟩,
   ⟨1983, 1985, 3, .sundayFrom 1, 10800, 39600, 36000⟩,
   ⟨1986, 1989, 3, .sundayFrom 14, 10800, 39600, 36000⟩,
   ⟨1986, 1986, 10, .date 19, 7200, 36000, 39600⟩,
   ⟨1987, 1999, 10, .lastSunday, 7200, 36000, 39600⟩,
   ⟨1990, 1995, 3, .sundayFrom 1, 10800, 39600, 36000⟩,
   ⟨1996, 2005, 3, .lastSunday, 10800, 39600, 36000⟩,
   ⟨2000, 2000, 8, .date 27, 7200, 36000, 39600⟩,
   ⟨2001, 2007, 10, .lastSunday, 7200, 36000, 39600⟩,
   ⟨2006, 2006, 4, .date 2, 10800, 39600, 36000⟩,
   ⟨2007, 2007, 3, .date 25, 10800, 39600, 36000⟩,
   ⟨2008, 2099, 4, .sundayFrom 1, 10800, 39600, 36000⟩,
   ⟨2008, 2099, 10, .sundayFrom 1, 7200, 36000, 39600⟩]

def pacificApia : List ClockRule :=
  [⟨2010, 2010, 9, .date 26, 0, -39600, -36000⟩,
   ⟨2011, 2011, 4, .date 2, 14400, -36000, -39600⟩,
   ⟨2011, 2011, 9, .date 24, 10800, -39600, -36000⟩,
   ⟨2011, 2011, 12, .date 30, 0, -36000, 50400⟩,
   ⟨2012, 2021, 4, .sundayFrom 1, 14400, 50400, 46800⟩,
   ⟨2012, 2020, 9, .lastSunday, 10800, 46800, 50400⟩]

def pacificKwajalein : List ClockRule :=
  [⟨1993, 1993, 8, .date 21, 0, -43200, 43200⟩]

def pacificKiritimati : List ClockRule :=
  [⟨1979, 1979, 10, .date 1, 0, -38400, -36000⟩,
   ⟨1994, 1994, 12, .date 31, 0, -36000, 50400⟩]

def pacificChatham : List ClockRule :=
  [⟨1974, 1974, 11, .date 3, 9900, 45900, 49500⟩,
   ⟨1975, 1975, 2, .date 23, 13500, 49500, 45900⟩,
   ⟨1975, 1988, 10, .lastSunday, 9900, 45900, 49500⟩,
   ⟨1976, 1989, 3, .sundayFrom 1, 13500, 49500, 45900⟩,
   ⟨1989, 1994, 10, .sundayFrom 2, 9900, 45900, 49500⟩,
   ⟨1990, 2007, 3, .sundayFrom 15, 13500, 49500, 45900⟩,
   ⟨1995, 2006, 10, .sundayFrom 1, 9900, 45900, 49500⟩,
   ⟨2007, 2099, 9, .lastSunday, 9900, 45900, 49500⟩,
   ⟨2008, 2099, 4, .sundayFrom 1, 13500, 49500, 45900⟩]

def africaMonrovia : List ClockRule :=
  [⟨1972, 1972, 1, .date 7, 0, -2670, 0⟩]

def asiaBeirut : List ClockRule :=
  [⟨1972, 1972, 6, .date 22, 0, 7200, 10800⟩,
   ⟨1972, 1972, 10, .date 1, 0, 10800, 7200⟩,
   ⟨1973, 1973, 5, .date 1, 0, 7200, 10800⟩,
   ⟨1973, 1973, 10, .date 1, 0, 10800, 7200⟩,
   ⟨1974, 1974, 5, .date 1, 0, 7200, 10800⟩,
   ⟨1974, 1974, 10, .date 1, 0, 10800, 7200⟩,
   ⟨1975, 1975, 5, .date 1, 0, 7200, 10800⟩,
   ⟨1975, 1975, 10, .date 1, 0, 10800, 7200⟩,
   ⟨1976, 1976, 5, .date 1, 0, 7200, 10800⟩,
   ⟨1976, 1976, 10, .date 1, 0, 10800, 7200⟩,
   ⟨1977, 1977, 5, .date 1, 0, 7200, 10800⟩,
   ⟨1977, 1977, 10, .date 1, 0, 10800, 7200⟩,
   ⟨1978, 1978, 4, .date 30, 0, 7200, 10800⟩,
   ⟨1978, 1978, 9, .date 30, 0, 10800, 7200⟩,
   ⟨1984, 1984, 5, .date 1, 0, 7200, 10800⟩,
   ⟨1984, 1984, 10, .date 16, 0, 10800, 7200⟩,
   ⟨1985, 1985, 5, .date 1, 0, 7200, 10800⟩,
   ⟨1985, 1985, 10, .date 16, 0, 10800, 7200⟩,
   ⟨1986, 1986, 5, .date 1, 0, 7200, 10800⟩,
   ⟨1986, 1986, 10, .date 16, 0, 10800, 7200⟩,
   ⟨1987, 1987, 5, .date 1, 0, 7200, 10800⟩,
   ⟨1987, 1987, 10, .date 16, 0, 10800, 7200⟩,
   ⟨1988, 1988, 6, .date 1, 0, 7200, 10800⟩,
   ⟨1988, 1988, 10, .date 16, 0, 10800, 7200⟩,
   ⟨1989, 1989, 5, .date 10, 0, 7200, 10800⟩,
   ⟨1989, 1989, 10, .date 16, 0, 10800, 7200⟩,
   ⟨1990, 1990, 5, .date 1, 0, 7200, 10800⟩,
   ⟨1990, 1990, 10, .date 16, 0, 10800, 7200⟩,
   ⟨1991, 1991, 5, .date 1, 0, 7200, 10800⟩,
   ⟨1991, 1991, 10, .date 16, 0, 10800, 7200⟩,
   ⟨1992, 1992, 5, .date 1, 0, 7200, 10800⟩,
   ⟨1992, 1992, 10, .date 4, 0, 10800, 7200⟩,
   ⟨1993, 2099, 3, .lastSunday, 0, 7200, 10800⟩,
   ⟨1993, 1998, 9, .lastSunday, 0, 10800, 7200⟩,
   ⟨1999, 2099, 10, .lastSunday, 0, 10800, 7200⟩]

def asiaPyongyang : List ClockRule :=
  [⟨2015, 2015, 8, .date 15, 0, 32400, 30600⟩,
   ⟨2018, 2018, 5, .date 4, 84600, 30600, 32400⟩]

def antarcticaTroll : List ClockRule :=
  [⟨2005, 2099, 3, .lastSunday, 3600, 0, 7200⟩,
   ⟨2005, 2099, 10, .lastSunday, 10800, 7200, 0⟩]

end ZoneRules

/-! ## changes, one list for each zone that has any -/

namespace ZoneChanges

def asiaKathmandu : List OffsetChange := changesOf ZoneRules.asiaKathmandu
def asiaHoChiMinh : List OffsetChange := changesOf ZoneRules.asiaHoChiMinh
def europeBerlin : List OffsetChange := changesOf ZoneRules.europeBerlin
def europeLondon : List OffsetChange := changesOf ZoneRules.europeLondon
def europeDublin : List OffsetChange := changesOf ZoneRules.europeDublin
def americaNewYork : List OffsetChange := changesOf ZoneRules.americaNewYork
def americaStJohns : List OffsetChange := changesOf ZoneRules.americaStJohns
def americaSaoPaulo : List OffsetChange := changesOf ZoneRules.americaSaoPaulo
def americaHavana : List OffsetChange := changesOf ZoneRules.americaHavana
def americaSantiago : List OffsetChange := changesOf ZoneRules.americaSantiago
def americaCaracas : List OffsetChange := changesOf ZoneRules.americaCaracas
def australiaLordHowe : List OffsetChange := changesOf ZoneRules.australiaLordHowe
def australiaSydney : List OffsetChange := changesOf ZoneRules.australiaSydney
def pacificApia : List OffsetChange := changesOf ZoneRules.pacificApia
def pacificKwajalein : List OffsetChange := changesOf ZoneRules.pacificKwajalein
def pacificKiritimati : List OffsetChange := changesOf ZoneRules.pacificKiritimati
def pacificChatham : List OffsetChange := changesOf ZoneRules.pacificChatham
def africaMonrovia : List OffsetChange := changesOf ZoneRules.africaMonrovia
def asiaBeirut : List OffsetChange := changesOf ZoneRules.asiaBeirut
def asiaPyongyang : List OffsetChange := changesOf ZoneRules.asiaPyongyang
def antarcticaTroll : List OffsetChange := changesOf ZoneRules.antarcticaTroll

end ZoneChanges

def NamedZone.clock : NamedZone → ZoneClock
  | .utc => .fixed 0
  | .etcGmtPlusFive => .fixed (-18000)
  | .asiaTokyo => .fixed 32400
  | .asiaKolkata => .fixed 19800
  | .asiaKathmandu => .ofChanges 19800 ZoneChanges.asiaKathmandu
  | .asiaHoChiMinh => .ofChanges 28800 ZoneChanges.asiaHoChiMinh
  | .europeBerlin => .ofChanges 3600 ZoneChanges.europeBerlin
  | .europeLondon => .ofChanges 3600 ZoneChanges.europeLondon
  | .europeDublin => .ofChanges 3600 ZoneChanges.europeDublin
  | .americaNewYork => .ofChanges (-18000) ZoneChanges.americaNewYork
  | .usEastern => .ofChanges (-18000) ZoneChanges.americaNewYork
  | .americaStJohns => .ofChanges (-12600) ZoneChanges.americaStJohns
  | .americaSaoPaulo => .ofChanges (-10800) ZoneChanges.americaSaoPaulo
  | .americaHavana => .ofChanges (-18000) ZoneChanges.americaHavana
  | .americaSantiago => .ofChanges (-10800) ZoneChanges.americaSantiago
  | .americaCaracas => .ofChanges (-14400) ZoneChanges.americaCaracas
  | .australiaLordHowe => .ofChanges 36000 ZoneChanges.australiaLordHowe
  | .australiaSydney => .ofChanges 36000 ZoneChanges.australiaSydney
  | .pacificApia => .ofChanges (-39600) ZoneChanges.pacificApia
  | .pacificKwajalein => .ofChanges (-43200) ZoneChanges.pacificKwajalein
  | .pacificKiritimati => .ofChanges (-38400) ZoneChanges.pacificKiritimati
  | .pacificChatham => .ofChanges 45900 ZoneChanges.pacificChatham
  | .africaMonrovia => .ofChanges (-2670) ZoneChanges.africaMonrovia
  | .asiaBeirut => .ofChanges 7200 ZoneChanges.asiaBeirut
  | .asiaPyongyang => .ofChanges 32400 ZoneChanges.asiaPyongyang
  | .antarcticaTroll => .ofChanges 0 ZoneChanges.antarcticaTroll

/-! ## the database -/

theorem NamedZone.ofName?_name (z : NamedZone) : NamedZone.ofName? z.name = some z := by
  cases z <;> decide

theorem NamedZone.isZoneName (z : NamedZone) : IsZoneName z.name where
  ne_empty := by cases z <;> decide
  not_blank := by
    have hall : (z.name.toList.all fun c => !Text.isBlank c) = true := by cases z <;> decide
    simpa using hall
  ne_local := by cases z <;> decide

namespace ZoneTable

scoped instance database : ZoneDatabase where
  Named := NamedZone
  name := NamedZone.name
  ofName? := NamedZone.ofName?
  clock := NamedZone.clock
  host := .fixed 0
  isZoneName := NamedZone.isZoneName
  ofName?_name := NamedZone.ofName?_name

end ZoneTable

end Rota
