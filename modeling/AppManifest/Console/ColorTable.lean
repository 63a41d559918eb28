namespace AppManifest.Console

/-- The colors of a terminal that have a name, by number. -/
def colorNames : List String :=
  ["black", "red", "green", "yellow", "blue", "magenta", "cyan", "white", "bright_black",
   "bright_red", "bright_green", "bright_yellow", "bright_blue", "bright_magenta", "bright_cyan",
   "bright_white", "gray0", "grey0", "navy_blue", "dark_blue", "blue3", "blue1", "dark_green",
   "deep_sky_blue4", "dodger_blue3", "dodger_blue2", "green4", "spring_green4", "turquoise4",
   "deep_sky_blue3", "dodger_blue1", "dark_cyan", "light_sea_green", "deep_sky_blue2",
   "deep_sky_blue1", "green3", "spring_green3", "cyan3", "dark_turquoise", "turquoise2", "green1",
   "spring_green2", "spring_green1", "medium_spring_green", "cyan2", "cyan1", "purple4", "purple3",
   "blue_violet", "gray37", "grey37", "medium_purple4", "slate_blue3", "royal_blue1",
   "chartreuse4", "pale_turquoise4", "steel_blue", "steel_blue3", "cornflower_blue",
   "dark_sea_green4", "cadet_blue", "sky_blue3", "chartreuse3", "sea_green3", "aquamarine3",
   "medium_turquoise", "steel_blue1", "sea_green2", "sea_green1", "dark_slate_gray2", "dark_red",
   "dark_magenta", "orange4", "light_pink4", "plum4", "medium_purple3", "slate_blue1", "wheat4",
   "gray53", "grey53", "light_slate_gray", "light_slate_grey", "medium_purple", "light_slate_blue",
   "yellow4", "dark_sea_green", "light_sky_blue3", "sky_blue2", "chartreuse2", "pale_green3",
   "dark_slate_gray3", "sky_blue1", "chartreuse1", "light_green", "aquamarine1",
   "dark_slate_gray1", "deep_pink4", "medium_violet_red", "dark_violet", "purple",
   "medium_orchid3", "medium_orchid", "dark_goldenrod", "rosy_brown", "gray63", "grey63",
   "medium_purple2", "medium_purple1", "dark_khaki", "navajo_white3", "gray69", "grey69",
   "light_steel_blue3", "light_steel_blue", "dark_olive_green3", "dark_sea_green3", "light_cyan3",
   "light_sky_blue1", "green_yellow", "dark_olive_green2", "pale_green1", "dark_sea_green2",
   "pale_turquoise1", "red3", "deep_pink3", "magenta3", "dark_orange3", "indian_red", "hot_pink3",
   "hot_pink2", "orchid", "orange3", "light_salmon3", "light_pink3", "pink3", "plum3", "violet",
   "gold3", "light_goldenrod3", "tan", "misty_rose3", "thistle3", "plum2", "yellow3", "khaki3",
   "light_yellow3", "gray84", "grey84", "light_steel_blue1", "yellow2", "dark_olive_green1",
   "dark_sea_green1", "honeydew2", "light_cyan1", "red1", "deep_pink2", "deep_pink1", "magenta2",
   "magenta1", "orange_red1", "indian_red1", "hot_pink", "medium_orchid1", "dark_orange",
   "salmon1", "light_coral", "pale_violet_red1", "orchid2", "orchid1", "orange1", "sandy_brown",
   "light_salmon1", "light_pink1", "pink1", "plum1", "gold1", "light_goldenrod2", "navajo_white1",
   "misty_rose1", "thistle1", "yellow1", "light_goldenrod1", "khaki1", "wheat1", "cornsilk1",
   "gray100", "grey100", "gray3", "grey3", "gray7", "grey7", "gray11", "grey11", "gray15",
   "grey15", "gray19", "grey19", "gray23", "grey23", "gray27", "grey27", "gray30", "grey30",
   "gray35", "grey35", "gray39", "grey39", "gray42", "grey42", "gray46", "grey46", "gray50",
   "grey50", "gray54", "grey54", "gray58", "grey58", "gray62", "grey62", "gray66", "grey66",
   "gray70", "grey70", "gray74", "grey74", "gray78", "grey78", "gray82", "grey82", "gray85",
   "grey85", "gray89", "grey89", "gray93", "grey93"]

end AppManifest.Console
