/-!
# Help texts

The version line and the two help texts of the command: a summary with one line for each option, and
a long form that also explains the stages.
-/

namespace OneDef.Help

def version : String := "defc 0.1.0\n"

def short : String := String.join [
  "Compile a one-function program into JavaScript\n",
  "\n",
  "Usage: defc [OPTIONS] [SOURCE]\n",
  "\n",
  "Arguments:\n",
  "  [SOURCE]  Source file to compile [default: test.src]\n",
  "\n",
  "Options:\n",
  "  -o, --output <OUTPUT>  Write the result here instead of stdout\n",
  "      --emit <EMIT>      Pipeline stage to print [default: js] ",
  "[possible values: js, tokens, ast, src]\n",
  "  -h, --help             Print help (see more with '--help')\n",
  "  -V, --version          Print version\n"]

def long : String := String.join [
  "Compile a one-function program into JavaScript\n",
  "\n",
  "Usage: defc [OPTIONS] [SOURCE]\n",
  "\n",
  "Arguments:\n",
  "  [SOURCE]\n",
  "          Source file to compile\n",
  "          \n",
  "          [default: test.src]\n",
  "\n",
  "Options:\n",
  "  -o, --output <OUTPUT>\n",
  "          Write the result here instead of stdout\n",
  "\n",
  "      --emit <EMIT>\n",
  "          Pipeline stage to print\n",
  "\n",
  "          Possible values:\n",
  "          - js:     The assembled JavaScript program\n",
  "          - tokens: Tokens as JSON\n",
  "          - ast:    Syntax tree as JSON\n",
  "          - src:    Syntax tree printed back as normalized source\n",
  "          \n",
  "          [default: js]\n",
  "\n",
  "  -h, --help\n",
  "          Print help (see a summary with '-h')\n",
  "\n",
  "  -V, --version\n",
  "          Print version\n"]

end OneDef.Help
