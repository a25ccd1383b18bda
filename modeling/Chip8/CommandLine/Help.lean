/-
# Chip8.CommandLine.Help — the help text of the command line.

The text begins with the form of a call, lists the options with their values, and ends with examples
of use.  Refused arguments are answered with the form of a call alone.
-/

namespace Chip8.CommandLine

/-- The name of the program in its own messages. -/
def programName : String := "main.py"

/-- The lines that show the form of a call. -/
def usageLines : List String :=
  ["usage: main.py [-h] [--rom ROM] [--hex HEX] [--quirks \x7bchip8,superchip\x7d]",
   "               [--frames FRAMES] [--clock-rate CLOCK_RATE] [--seed SEED]",
   "               [--keys KEYS] [--trace] [--quiet]",
   "               [--log-level \x7bDEBUG,INFO,WARNING,ERROR\x7d]"]

/-- The lines of the help text. -/
def helpLines : List String :=
  usageLines ++
  ["",
   "chip8-vm: CHIP-8 Virtual Machine",
   "",
   "options:",
   "  -h, --help            show this help message and exit",
   "  --rom ROM, -r ROM     Path to program image",
   "  --hex HEX, -x HEX     Inline program as 16-bit hex words (e.g. \"6005 1200\")",
   "  --quirks \x7bchip8,superchip\x7d, -q \x7bchip8,superchip\x7d",
   "                        Variant semantics preset. Default: chip8",
   "  --frames FRAMES, -f FRAMES",
   "                        Number of 60 Hz frames to run. Default: 60",
   "  --clock-rate CLOCK_RATE",
   "                        Instructions per second. Default: 750",
   "  --seed SEED           Seed for the random number source (reproducible runs)",
   "  --keys KEYS, -k KEYS  Hex keys held down during the run (e.g. 5,A)",
   "  --trace, -t           Print full execution trace",
   "  --quiet               Only print the screen",
   "  --log-level \x7bDEBUG,INFO,WARNING,ERROR\x7d",
   "                        Logging level. Default: WARNING",
   "",
   "Examples:",
   "    # Run a ROM for one second of emulated time",
   "    python main.py --rom roms/ibm_logo.ch8 --frames 60",
   "",
   "    # Run with SUPER-CHIP variant semantics",
   "    python main.py --rom roms/test.ch8 --quirks superchip",
   "",
   "    # Run inline machine code with full trace output",
   "    python main.py --hex \"A000 6000 6100 D015 1208\" --trace",
   "",
   "    # Hold keys 5 and A down for the whole run",
   "    python main.py --rom roms/game.ch8 --keys 5,A",
   "        "]

end Chip8.CommandLine
